import LiveTree.Proofs.Session.Books
import LiveTree.Proofs.Session.Callbacks
import LiveTree.Proofs.Session.Parts

/-! A handle cancels once. Many routes lead to a handle: every name that stands for it, every
guard that is given up, and the action that the handle itself runs. Whichever comes first has the
effect, from that moment on the handle is seen to be cancelled, and all that come later find
nothing left to do. -/
namespace LiveTree.Session

open Awaiting LiveTree.Frame

namespace Machine

/-- The next step makes a handle, with what cancelling it is to do. -/
inductive Makes (machine : Machine) : Option CancelAction → Prop
  | creates (name : Name) (body : Body)
      (control : machine.control = .execute (.handle (.create name body))) :
      Makes machine (some (.run name body))
  | idle (name : Name) (control : machine.control = .execute (.handle (.createIdle name))) :
      Makes machine none
  | accepts {source : QueueRef} {ticket : Ticket} {handle : HandleId} {callback : Callback}
      {hooked : Bool}
      (done : machine.deed? = some (.accepts source ticket handle callback hooked)) :
      Makes machine (some (.withdraw source ticket))

/-- The next step attempts to cancel a handle, with the answer that is given for an attempt that
has an effect or none: a name of it is asked to, or a guard is given up, or loses its name to
another. -/
inductive TriesWith (machine : Machine) (id : HandleId) : (Bool → Answer) → Prop
  | cancels (name : Name) (control : machine.control = .execute (.handle (.cancel name)))
      (named : machine.world.handleNames.get? name = some id) : TriesWith machine id .flag
  | releases (guard : Name) (control : machine.control = .execute (.handle (.release guard)))
      (guarded : machine.world.guards.get? guard = some ⟨id⟩) : TriesWith machine id fun _ => .ok
  | replaces (name guard : Name) {other : HandleId}
      (control : machine.control = .execute (.handle (.guard name guard)))
      (named : machine.world.handleNames.get? name = some other)
      (guarded : machine.world.guards.get? guard = some ⟨id⟩) : TriesWith machine id fun _ => .ok

/-- The next step attempts to cancel a handle. -/
def Tries (machine : Machine) (id : HandleId) : Prop := ∃ answer, machine.TriesWith id answer

/-- After an attempt its call has nothing left to do but to answer, and on top of it runs what the
attempt runs; nothing else is called, and nobody else is withdrawn. -/
def Runs (before after : Machine) (answer : Answer) (action : Option CancelAction) : Prop :=
  after.control = .proceed ∧
    match action with
    | none =>
      after.log = before.log ∧ after.stack = .replying answer :: before.stack ∧
        after.stage.awaiting = before.stage.awaiting
    | some (.run name body) =>
      after.log = .cancelled name :: before.log ∧
        after.stack = .body body :: .replying answer :: before.stack ∧
        after.stage.awaiting = before.stage.awaiting
    | some (.withdraw source ticket) =>
      after.log = before.log ∧ after.stack = .replying answer :: before.stack ∧
        after.stage.awaiting = Function.update before.stage.awaiting source
          ((before.stage.awaiting source).map (·.withdraw ticket))

/-- What follows a step that started a call over some others: once the call is done, it has given
this answer, unless a panic left it. -/
def Answers (base : List Call) (later : List Machine) (answer : Answer) : Prop :=
  ∀ during ending rest, later = during ++ ending :: rest →
    (∀ middle ∈ during, middle.Inside base) → ending.stack = base →
      ending.control = .answer answer ∨ ∃ reason, ending.control = .unwind reason

/-- Everything that stands for a handle shows whether it is cancelled. -/
structure Reveals (machine : Machine) (id : HandleId) (cancelled : Bool) : Prop where
  handle : machine.world.handles.isCancelled id = cancelled
  names : ∀ name, machine.world.handleNames.get? name = some id →
    machine.world.view .handle name = some (.handle cancelled)
  guards : ∀ name, machine.world.guards.get? name = some ⟨id⟩ →
    machine.world.view .guard name = some (.handle cancelled)

/-! ### Attempts -/

private theorem size_cancel (handles : Handles CancelAction) (id : HandleId) :
    (handles.cancel id).2.size = handles.size := by
  unfold Handles.cancel
  split <;> simp

private theorem handles_cancel (machine : Machine) (id : HandleId) :
    (machine.cancel id).world.handles = (machine.world.handles.cancel id).2 := by
  unfold cancel
  simp only
  rcases (machine.world.handles.cancel id).1.action with _ | ⟨name, body⟩ | ⟨source, ticket⟩
  · rfl
  · rfl
  · cases source <;> rfl

variable {machine : Machine} {id : HandleId} {answer : Bool → Answer} {action : Option CancelAction}

/-- An attempt is a call that has nothing left to do but to answer, in which the handle is
cancelled. -/
private theorem TriesWith.step_eq (grounded : machine.Grounded)
    (attempt : machine.TriesWith id answer) :
    ∃ world, machine.world.handles = world.handles ∧ world.awaiting = machine.world.awaiting ∧
      machine.step = ((machine.withWorld world).push
        (.replying (answer (!machine.world.handles.isCancelled id)))).cancel id := by
  cases attempt with
  | cancels name control named =>
    have known := grounded.names name id named
    have found := Array.getElem?_eq_getElem known
    refine ⟨machine.world, rfl, rfl, ?_⟩
    rw [step_of_execute control]
    simp only [execute, executeHandle, onHandle, named, found, Handles.isCancelled, withWorld]
  | releases guard control guarded =>
    refine ⟨{ machine.world with guards := machine.world.guards.erase guard }, rfl, rfl, ?_⟩
    rw [step_of_execute control]
    simp only [execute, executeHandle, onGuard, guarded]
    rfl
  | @replaces name guard other control named guarded =>
    have known := grounded.names name other named
    have found := Array.getElem?_eq_getElem known
    refine ⟨{ machine.world with guards := machine.world.guards.set guard ⟨other⟩ }, rfl, rfl, ?_⟩
    rw [step_of_execute control]
    simp only [execute, executeHandle, onHandle, storeGuard, named, found, guarded]

/-- What an attempt does is up to what the handle still holds. -/
private theorem TriesWith.effect (attempt : machine.TriesWith id answer)
    (grounded : machine.Grounded) {handle : Handle CancelAction}
    (found : machine.world.handles[id]? = some handle) :
    machine.Runs machine.step (answer (!handle.cancelled)) handle.cancel.1.action ∧
      machine.step.world.handles = (machine.world.handles.cancel id).2 := by
  obtain ⟨world, handles, awaiting, stepped⟩ := attempt.step_eq grounded
  have flag : machine.world.handles.isCancelled id = handle.cancelled := by
    simp only [Handles.isCancelled, found]
  have attempted : (machine.world.handles.cancel id).1 = handle.cancel.1 := by
    simp only [Handles.cancel, found]
  have left : machine.step.world.handles = (machine.world.handles.cancel id).2 := by
    rw [stepped, handles_cancel, handles]
    rfl
  refine ⟨?_, left⟩
  rw [stepped, flag, ← attempted]
  simp only [cancel, push, withWorld, ← handles]
  rcases (machine.world.handles.cancel id).1.action with _ | ⟨name, body⟩ | ⟨source, ticket⟩
  · exact ⟨rfl, rfl, rfl, awaiting⟩
  · exact ⟨rfl, rfl, rfl, awaiting⟩
  · refine ⟨rfl, rfl, rfl, (awaiting_withdraw _ source ticket).trans ?_⟩
    exact congrArg (fun queues : QueueRef → Option CallbackQueue =>
      Function.update queues source ((queues source).map (·.withdraw ticket))) awaiting

private theorem TriesWith.executes (attempt : machine.TriesWith id answer) :
    ∃ command, machine.control = .execute command := by
  cases attempt <;> exact ⟨_, ‹_›⟩

private theorem TriesWith.deed (attempt : machine.TriesWith id answer)
    (grounded : machine.Grounded) : machine.deed? = some (.cancels id) := by
  cases attempt with
  | cancels name control named =>
    have known : id < machine.stage.handles.size := grounded.names name id named
    simp only [deed?, control, started?, named, Option.bind_some, Stage.cancel?, if_pos known]
  | releases guard control guarded =>
    have known : id < machine.stage.handles.size := grounded.guards guard _ guarded
    simp only [deed?, control, started?, guarded, Option.bind_some, Stage.cancel?, if_pos known]
  | @replaces name guard other control named guarded =>
    have known : id < machine.stage.handles.size := grounded.guards guard _ guarded
    have found := Array.getElem?_eq_getElem (grounded.names name other named)
    simp only [deed?, control, started?, named, found, guarded, Option.bind_some, Stage.cancel?,
      if_pos known]

/-- Nothing but an attempt is an attempt. -/
private theorem tries_of_deed (done : machine.deed? = some (.cancels id)) : machine.Tries id := by
  cases doing_of_deed done with
  | starts control _ =>
    cases starts_of_deed control done with
    | cancels named => exact ⟨_, .cancels _ control named⟩
    | replaces named guarded => exact ⟨_, .replaces _ _ control named guarded⟩
    | releases guarded => exact ⟨_, .releases _ control guarded⟩

/-! ### The handles of a session -/

section Grounded

variable (grounded : machine.Grounded)
include grounded

private theorem Grounded.control (control : Control) :
    ({ machine with control } : Machine).Grounded :=
  ⟨grounded.names, grounded.guards, grounded.registering⟩

private theorem Grounded.replying (answer : Answer) : (machine.push (.replying answer)).Grounded :=
  (Leads.start.push id).grounded grounded

private theorem Grounded.nameHandle (name : Name) (known : id < machine.world.handles.size) :
    (machine.nameHandle name id).Grounded where
  names other held named := by
    by_cases same : other = name
    · subst same
      rw [Machine.nameHandle, withWorld, Table.get?_set_self] at named
      cases named
      exact known
    · rw [Machine.nameHandle, withWorld, Table.get?_set_of_ne _ _ same] at named
      exact grounded.names other held named
  guards := grounded.guards
  registering := grounded.registering

private theorem Grounded.createHandle (name : Name) (handle : Handle CancelAction) :
    (machine.createHandle name handle).Grounded := by
  let handles := machine.world.handles.push handle
  have grown : machine.world.handles.size < handles.size := by simp [handles]
  have created : (machine.withWorld { machine.world with handles }).Grounded :=
    ⟨fun name id named => Nat.lt_trans (grounded.names name id named) grown,
      fun name guard guarded => Nat.lt_trans (grounded.guards name guard guarded) grown,
      fun id name member => Nat.lt_trans (grounded.registering id name member) grown⟩
  exact (created.nameHandle name grown).control _

private theorem Grounded.setGuard (name : Name) (guard : Guard)
    (known : guard.handle < machine.world.handles.size) :
    (machine.withWorld
      { machine.world with guards := machine.world.guards.set name guard }).Grounded where
  names := grounded.names
  guards other held guarded := by
    by_cases same : other = name
    · subst same
      rw [withWorld, Table.get?_set_self] at guarded
      cases guarded
      exact known
    · rw [withWorld, Table.get?_set_of_ne _ _ same] at guarded
      exact grounded.guards other held guarded
  registering := grounded.registering

private theorem Grounded.removeGuard (name : Name) : (machine.removeGuard name).Grounded where
  names := grounded.names
  guards other held guarded := by
    by_cases same : other = name
    · rw [Machine.removeGuard, withWorld, same, Table.get?_erase_self] at guarded
      cases guarded
    · rw [Machine.removeGuard, withWorld, Table.get?_erase_of_ne _ same] at guarded
      exact grounded.guards other held guarded
  registering := grounded.registering

private theorem Grounded.cancel (id : HandleId) : (machine.cancel id).Grounded := by
  let handles := (machine.world.handles.cancel id).2
  have size : handles.size = machine.world.handles.size := size_cancel ..
  have tried : (machine.withWorld { machine.world with handles }).Grounded :=
    ⟨fun name id named => size.symm ▸ grounded.names name id named,
      fun name guard guarded => size.symm ▸ grounded.guards name guard guarded,
      fun id name member => size.symm ▸ grounded.registering id name member⟩
  unfold Machine.cancel
  simp only
  rcases (machine.world.handles.cancel id).1.action with _ | ⟨name, body⟩ | ⟨source, ticket⟩
  · exact tried.control _
  · have logged : ((machine.withWorld { machine.world with handles }).report
        (.cancelled name)).Grounded := ⟨tried.names, tried.guards, tried.registering⟩
    exact (Leads.start.run).grounded logged
  · have withdrawn (after : Machine) :
        Leads after false (after.withWorld (after.world.withdraw source ticket)) :=
      .world .start (by cases source <;> exact ⟨rfl, rfl, rfl⟩)
    exact ((withdrawn _).grounded tried).control _

private theorem Grounded.handled {command : HandleCommand Body} {after : Machine}
    (done : machine.Handled command after) : after.Grounded := by
  cases done with
  | answers => exact grounded.control _
  | creates | idle => exact grounded.createHandle ..
  | shares other named =>
    exact (grounded.nameHandle other (grounded.names _ _ named)).control _
  | cancels => exact (grounded.replying _).cancel _
  | guards named =>
    exact (grounded.setGuard _ ⟨_⟩ (grounded.names _ _ named)).control _
  | replaces named =>
    exact ((grounded.setGuard _ ⟨_⟩ (grounded.names _ _ named)).replying _).cancel _
  | disarms => exact (grounded.removeGuard _).control _
  | givesBack back guarded =>
    exact ((grounded.removeGuard _).nameHandle back (grounded.guards _ _ guarded)).control _
  | releases => exact ((grounded.removeGuard _).replying _).cancel _

/-- Every name, guard and registration stands for a handle, whatever the next step does. -/
private theorem Grounded.step : machine.step.Grounded := by
  by_cases about : machine.AboutHandles
  · rcases about.cases with ⟨command, control⟩ | ⟨id, name, calls, control, stack⟩
    · exact grounded.handled (handled_step control)
    · rw [step_of_proceed control stack]
      have known := grounded.registering id name (by rw [stack]; exact List.mem_cons_self)
      have popped := (Leads.start.pop).grounded grounded
      cases name with
      | none => exact popped.control _
      | some name => exact (popped.nameHandle name known).control _
  · exact (leads_step about).grounded grounded

end Grounded

private theorem Move.grounded {after : Machine} (move : machine.Move after)
    (grounded : machine.Grounded) : after.Grounded := by
  cases move with
  | step => exact grounded.step
  | @reconsider call other rest stack _ free =>
    refine ⟨grounded.names, grounded.guards, fun id name member => ?_⟩
    rcases List.mem_cons.mp member with rfl | below
    · cases free
    · exact grounded.registering id name (by rw [stack]; exact List.mem_cons_of_mem _ below)
  | command => exact ⟨grounded.names, grounded.guards, nofun⟩

private theorem Course.grounded {passed : List Machine} (course : Course passed machine) :
    machine.Grounded := by
  obtain ⟨scripts, listener, command, goes⟩ := course
  induction goes with
  | stays => exact ⟨nofun, nofun, nofun⟩
  | moves _ move ih => exact move.grounded ih

/-! ### What becomes of a handle -/

private theorem tries_iff_deed (grounded : machine.Grounded) :
    machine.Tries id ↔ machine.deed? = some (.cancels id) :=
  ⟨fun ⟨_, attempt⟩ => attempt.deed grounded, tries_of_deed⟩

variable {passed : List Machine} {after : Machine}

/-- Only a step starts a command. -/
private theorem Move.eq_step_of_execute {command : Command} (move : machine.Move after)
    (control : machine.control = .execute command) : after = machine.step := by
  cases move with
  | step => rfl
  | reconsider _ proceeds =>
    rw [control] at proceeds
    cases proceeds
  | command finished =>
    rcases stack : machine.stack with _ | ⟨call, calls⟩ <;>
      simp [outcome?, stack, control] at finished

private theorem Makes.executes (makes : machine.Makes action) :
    ∃ command, machine.control = .execute command := by
  cases makes with
  | creates _ _ control | idle _ control => exact ⟨_, control⟩
  | accepts done =>
    cases doing_of_deed done with
    | starts control => exact ⟨_, control⟩

private theorem Makes.handles_step (makes : machine.Makes action)
    (attended : machine.stage.Attended) :
    machine.step.world.handles = machine.world.handles.push ⟨false, action⟩ := by
  cases makes with
  | creates _ _ control | idle _ control =>
    rw [step_of_execute control]
    rfl
  | accepts done =>
    have handling := (stage_step attended).handling
    rw [done] at handling
    change Stage.Handling machine.world.handles _ machine.step.world.handles at handling
    generalize machine.step.world.handles = handles at handling ⊢
    cases handling with
    | stays quiet => exact absurd rfl (quiet _ rfl _ _ _ _ _).1
    | accepts => rfl

/-- A handle stays as it is but for attempts to cancel it. -/
private theorem Move.handle (move : machine.Move after) (grounded : machine.Grounded)
    (attended : machine.stage.Attended) {handle : Handle CancelAction}
    (found : machine.world.handles[id]? = some handle) :
    machine.Tries id ∧ after.world.handles[id]? = some handle.cancel.2 ∨
      ¬ machine.Tries id ∧ after.world.handles[id]? = some handle := by
  rw [tries_iff_deed grounded]
  have handling := (move.stage_step attended).handling
  change Stage.Handling machine.world.handles _ after.world.handles at handling
  generalize machine.deed? = deed at handling
  generalize after.world.handles = handles at handling ⊢
  have known : id < machine.world.handles.size := (Array.getElem?_eq_some_iff.mp found).1
  cases handling with
  | stays quiet =>
    refine .inr ⟨?_, found⟩
    rintro rfl
    exact (quiet _ rfl (.queue 0) 0 id (.waiter ⟨"", [], []⟩) false).2 rfl
  | keeps | accepts =>
    refine .inr ⟨nofun, ?_⟩
    rw [Array.getElem?_push, if_neg (Nat.ne_of_lt known), found]
  | @cancels other =>
    rw [Stage.getElem?_cancel]
    by_cases same : id = other
    · subst same
      exact .inl ⟨rfl, by rw [if_pos rfl, found]; rfl⟩
    · refine .inr ⟨fun cancels => ?_, by rw [if_neg same, found]⟩
      cases cancels
      exact same rfl

/-- A handle is as it was made until the first attempt to cancel it, and empty from then on. -/
private theorem Course.handle_since {earlier later : List Machine} {making : Machine}
    (course : Course (earlier ++ making :: later) machine) (makes : making.Makes action) :
    (∀ trying ∈ later, ¬ trying.Tries making.world.handles.size) ∧
        machine.world.handles[making.world.handles.size]? = some ⟨false, action⟩ ∨
      (∃ trying ∈ later, trying.Tries making.world.handles.size) ∧
        machine.world.handles[making.world.handles.size]? = some ⟨true, none⟩ := by
  induction later using List.reverseRecOn generalizing machine with
  | nil =>
    obtain ⟨early, move⟩ := course.latest
    obtain ⟨command, control⟩ := makes.executes
    rw [move.eq_step_of_execute control, makes.handles_step early.life.attended]
    exact .inl ⟨List.forall_mem_nil _, Array.getElem?_push_size⟩
  | append_singleton later last ih =>
    rw [← List.cons_append, ← List.append_assoc] at course
    obtain ⟨early, move⟩ := course.latest
    rcases ih early with ⟨untried, found⟩ | ⟨⟨trying, member, tries⟩, found⟩
    · rcases move.handle early.grounded early.life.attended found with ⟨tries, held⟩ | ⟨quiet, held⟩
      · exact .inr ⟨⟨last, by simp, tries⟩, held⟩
      · refine .inl ⟨fun trying member => ?_, held⟩
        rcases List.mem_append.mp member with former | latest
        · exact untried trying former
        · rwa [List.mem_singleton.mp latest]
    · refine .inr ⟨⟨trying, List.mem_append_left _ member, tries⟩, ?_⟩
      rcases move.handle early.grounded early.life.attended found with ⟨-, held⟩ | ⟨-, held⟩
      · exact held
      · exact held

/-- A step that adds a handle whose action withdraws nobody makes it by a command. -/
private theorem makes_of_push {handle : Handle CancelAction}
    (pushed : machine.step.world.handles = machine.world.handles.push handle)
    (free : ∀ source ticket, handle.action ≠ some (.withdraw source ticket)) :
    ∃ action, machine.Makes action := by
  have size : machine.step.world.handles.size = machine.world.handles.size + 1 := by
    rw [pushed, Array.size_push]
  by_cases about : machine.AboutHandles
  · rcases about.cases with ⟨command, control⟩ | ⟨id, name, calls, control, stack⟩
    · have done := handled_step control
      generalize machine.step = after at done size
      cases done with
      | creates name body => exact ⟨_, .creates name body control⟩
      | idle name => exact ⟨_, .idle name control⟩
      | cancels | replaces | releases =>
        rw [handles_cancel, size_cancel] at size
        exact absurd size (Nat.ne_of_lt (Nat.lt_succ_self _))
      | _ => exact absurd size (Nat.ne_of_lt (Nat.lt_succ_self _))
    · have same : machine.step.world.handles = machine.world.handles := by
        rw [step_of_proceed control stack]
        cases name <;> rfl
      rw [same] at size
      omega
  · have kept : machine.step.world.handles[machine.world.handles.size]? = some handle := by
      rw [pushed, Array.getElem?_push_size]
    obtain ⟨source, ticket, action⟩ := (leads_step about).handle_withdraws kept (Nat.le_refl _)
    exact absurd action (free source ticket)

/-- A handle that is new after a move was made by it. -/
private theorem Move.makes (move : machine.Move after) (attended : machine.stage.Attended)
    (new : machine.world.handles.size ≤ id) (known : id < after.world.handles.size) :
    machine.world.handles.size = id ∧ ∃ action, machine.Makes action := by
  have handling := (move.stage_step attended).handling
  change Stage.Handling machine.world.handles _ after.world.handles at handling
  generalize done : machine.deed? = deed at handling
  generalize held : after.world.handles = handles at handling known
  have last {handle : Handle CancelAction} (known : id < (machine.world.handles.push handle).size) :
      machine.world.handles.size = id := by
    rw [Array.size_push] at known
    exact Nat.le_antisymm new (Nat.le_of_lt_succ known)
  cases handling with
  | stays => exact absurd known (Nat.not_lt.mpr new)
  | @cancels other =>
    rw [size_cancel] at known
    exact absurd known (Nat.not_lt.mpr new)
  | accepts => exact ⟨last known, _, .accepts done⟩
  | keeps handle free =>
    have unmoved (same : after.world.handles = machine.world.handles) :
        ∃ action, machine.Makes action := by
      have sizes := congrArg Array.size (same.symm.trans held)
      rw [Array.size_push] at sizes
      omega
    refine ⟨last known, ?_⟩
    cases move with
    | step => exact makes_of_push held free
    | reconsider => exact unmoved rfl
    | command => exact unmoved rfl

/-- Every handle has been made. -/
private theorem Course.exists_makes (course : Course passed machine)
    (known : id < machine.world.handles.size) :
    ∃ earlier making later, passed = earlier ++ making :: later ∧
      making.world.handles.size = id ∧ ∃ action, making.Makes action := by
  induction passed using List.reverseRecOn generalizing machine with
  | nil =>
    obtain ⟨scripts, listener, command, goes⟩ := course
    generalize none : ([] : List Machine) = passed at goes
    cases goes with
    | stays => cases known
    | moves => simp at none
  | append_singleton passed last ih =>
    obtain ⟨early, move⟩ := course.latest
    by_cases old : id < last.world.handles.size
    · obtain ⟨earlier, making, later, rfl, made⟩ := ih early old
      exact ⟨earlier, making, later ++ [last], by simp, made⟩
    · exact ⟨passed, last, [], rfl, move.makes early.life.attended (Nat.not_lt.mp old) known⟩

private theorem TriesWith.known (attempt : machine.TriesWith id answer)
    (grounded : machine.Grounded) : id < machine.world.handles.size := by
  cases attempt with
  | cancels _ _ named => exact grounded.names _ _ named
  | releases _ _ guarded | replaces _ _ _ _ guarded => exact grounded.guards _ _ guarded

/-- Handles stay. -/
private theorem Course.size_le (course : Course passed machine) :
    ∀ sooner ∈ passed, sooner.world.handles.size ≤ machine.world.handles.size := by
  induction passed using List.reverseRecOn generalizing machine with
  | nil => exact List.forall_mem_nil _
  | append_singleton passed last ih =>
    obtain ⟨early, move⟩ := course.latest
    have grown : last.world.handles.size ≤ machine.world.handles.size :=
      (move.stage_step early.life.attended).handling.size_le
    intro sooner member
    rcases List.mem_append.mp member with former | latest
    · exact Nat.le_trans (ih early sooner former) grown
    · rwa [List.mem_singleton.mp latest]

/-- Nobody attempts to cancel a handle that is not made yet. -/
private theorem Course.untried {earlier later : List Machine} {making : Machine}
    (course : Course (earlier ++ making :: later) machine) :
    ∀ sooner ∈ earlier ++ [making], ¬ sooner.Tries making.world.handles.size := by
  rintro sooner member ⟨answer, attempt⟩
  obtain ⟨before, after, split⟩ := List.append_of_mem member
  have early := course.before
  have own := early.upTo split
  have known := attempt.known own.grounded
  rcases List.mem_append.mp member with former | latest
  · exact absurd known (Nat.not_lt.mpr (early.size_le sooner former))
  · rw [List.mem_singleton.mp latest] at known
    exact Nat.lt_irrefl _ known

/-- Every handle is as it was made, or somebody has attempted to cancel it and it is empty. -/
private theorem Course.handle_cases (course : Course passed machine)
    (known : id < machine.world.handles.size) :
    (∀ sooner ∈ passed, ¬ sooner.Tries id) ∧
        (∃ making ∈ passed, making.world.handles.size = id ∧ ∃ action, making.Makes action ∧
          machine.world.handles[id]? = some ⟨false, action⟩) ∨
      (∃ sooner ∈ passed, sooner.Tries id) ∧ machine.world.handles[id]? = some ⟨true, none⟩ := by
  obtain ⟨earlier, making, later, rfl, rfl, action, makes⟩ := course.exists_makes known
  rcases course.handle_since makes with ⟨untried, held⟩ | ⟨⟨trying, member, tries⟩, held⟩
  · refine .inl ⟨fun sooner member => ?_, making, by simp, rfl, action, makes, held⟩
    have split : earlier ++ making :: later = (earlier ++ [making]) ++ later := by simp
    rw [split] at member
    rcases List.mem_append.mp member with former | later
    · exact course.untried sooner former
    · exact untried sooner later
  · exact .inr ⟨⟨trying, by simp [member], tries⟩, held⟩

/-- A handle is cancelled exactly when somebody has attempted to. -/
private theorem Course.isCancelled_iff (course : Course passed machine)
    (known : id < machine.world.handles.size) :
    machine.world.handles.isCancelled id = true ↔ ∃ sooner ∈ passed, sooner.Tries id := by
  unfold Handles.isCancelled
  rcases course.handle_cases known with ⟨untried, _, -, -, _, -, held⟩ | ⟨tried, held⟩
  · rw [held]
    exact ⟨nofun, fun ⟨sooner, member, tries⟩ => absurd tries (untried sooner member)⟩
  · rw [held]
    exact ⟨fun _ => tried, fun _ => rfl⟩

/-- No step but an attempt to cancel a handle logs that one is cancelled. -/
private theorem cancellations_step (quiet : ∀ id, ¬ machine.Tries id) :
    machine.step.cancellations = machine.cancellations := by
  by_cases about : machine.AboutHandles
  · rcases about.cases with ⟨command, control⟩ | ⟨id, name, calls, control, stack⟩
    · have done := handled_step control
      generalize machine.step = after at done ⊢
      cases done with
      | cancels named => exact absurd ⟨_, .cancels _ control named⟩ (quiet _)
      | replaces named guarded => exact absurd ⟨_, .replaces _ _ control named guarded⟩ (quiet _)
      | releases guarded => exact absurd ⟨_, .releases _ control guarded⟩ (quiet _)
      | _ => rfl
    · rw [step_of_proceed control stack]
      cases name <;> rfl
  · exact (leads_step about).cancellations_eq

/-- Nobody is withdrawn but by an attempt to cancel a handle that still holds this as its action. -/
private theorem Move.withdraws (move : machine.Move after) (attended : machine.stage.Attended)
    {source : QueueRef} {queue changed : CallbackQueue} {ticket : Ticket} {fate : Fate}
    (found : machine.stage.awaiting source = some queue)
    (left : after.stage.awaiting source = some changed) (known : queue.fate? ticket = some fate)
    (present : fate ≠ .withdrawn) (gone : changed.fate? ticket = some .withdrawn) :
    ∃ id, machine.Tries id ∧
      machine.world.handles[id]? = some ⟨false, some (.withdraw source ticket)⟩ := by
  obtain ⟨_, still, change⟩ := (move.stage_step attended).change found
  cases left.symm.trans still
  have settled := (change.fate? known).symm.trans gone
  rw [Option.some.injEq] at settled
  split at settled
  · cases done : machine.deed? with
    | none => simp [done] at settled
    | some deed =>
      rw [done, Option.bind_some] at settled
      cases deed with
      | cancels id =>
        simp only [Stage.settles?] at settled
        split at settled
        · next withdrawn =>
          exact ⟨id, tries_of_deed done, Stage.handle_of_withdrawn withdrawn⟩
        · cases settled
      | serves | loses =>
        simp only [Stage.settles?] at settled
        split at settled <;> cases settled
      | _ => cases settled
  · exact absurd settled present

/-! ### Guards -/

/-- The next step is about what a guard's name stands for: it puts another guard there, disarms the
guard, or gives it up. -/
inductive Regards (machine : Machine) (guard : Name) : Prop
  | guards (name : Name) (control : machine.control = .execute (.handle (.guard name guard)))
  | disarms (back : Option Name)
      (control : machine.control = .execute (.handle (.disarm guard back)))
  | releases (control : machine.control = .execute (.handle (.release guard)))

private theorem guards_cancel (machine : Machine) (id : HandleId) :
    (machine.cancel id).world.guards = machine.world.guards := by
  unfold cancel
  simp only
  rcases (machine.world.handles.cancel id).1.action with _ | ⟨name, body⟩ | ⟨source, ticket⟩
  · rfl
  · rfl
  · cases source <;> rfl

/-- A guard stays under its name. -/
private theorem guard_step {guard : Name} (elsewhere : ¬ machine.Regards guard) :
    machine.step.world.guards.get? guard = machine.world.guards.get? guard := by
  by_cases about : machine.AboutHandles
  · rcases about.cases with ⟨command, control⟩ | ⟨id, name, calls, control, stack⟩
    · have done := handled_step control
      generalize machine.step = after at done ⊢
      cases done with
      | answers | creates | idle | shares => rfl
      | cancels =>
        rw [guards_cancel]
        rfl
      | guards =>
        refine Table.get?_set_of_ne _ _ ?_
        rintro rfl
        exact elsewhere (.guards _ control)
      | replaces =>
        rw [guards_cancel]
        refine Table.get?_set_of_ne _ _ ?_
        rintro rfl
        exact elsewhere (.guards _ control)
      | disarms | givesBack =>
        refine Table.get?_erase_of_ne _ ?_
        rintro rfl
        exact elsewhere (.disarms _ control)
      | releases =>
        rw [guards_cancel]
        refine Table.get?_erase_of_ne _ ?_
        rintro rfl
        exact elsewhere (.releases control)
    · rw [step_of_proceed control stack]
      cases name <;> rfl
  · rw [(leads_step about).guards_eq]

/-- Where a guard is put under a name, it is found there. -/
private theorem guard_of_guards {name guard : Name} (grounded : machine.Grounded)
    (control : machine.control = .execute (.handle (.guard name guard)))
    (named : machine.world.handleNames.get? name = some id) :
    machine.step.world.guards.get? guard = some ⟨id⟩ := by
  have found := Array.getElem?_eq_getElem (grounded.names name id named)
  rw [step_of_execute control]
  simp only [execute, executeHandle, onHandle, storeGuard, named, found]
  split
  · rw [guards_cancel]
    exact Table.get?_set_self ..
  · exact Table.get?_set_self ..

/-- Of two machines that follow each other on a way, a guard is where it was unless the first one
regards it. -/
private theorem Goes.guard {first : Machine} {guard : Name} (goes : first.Goes passed machine)
    (elsewhere : ∀ middle ∈ passed, ¬ middle.Regards guard) :
    machine.world.guards.get? guard = first.world.guards.get? guard := by
  induction goes with
  | stays => rfl
  | @moves passed last after goes move ih =>
    have kept := ih fun middle member => elsewhere middle (List.mem_append_left _ member)
    rw [← kept]
    cases move with
    | step => exact guard_step (elsewhere last (List.mem_append_right _ List.mem_cons_self))
    | reconsider => rfl
    | command => rfl

/-- What it is to disarm a guard: the guard is gone, the handle is given back under the name that
was asked for, and nothing is cancelled or called. -/
structure Disarms (machine : Machine) (guard : Name) (back : Option Name) (id : HandleId) :
    Prop where
  /-- The answer tells whether the handle is cancelled. -/
  answers : machine.step.control = .answer (.flag (machine.world.handles.isCancelled id))
  /-- The name that was asked for stands for the very handle that was guarded. -/
  given : ∀ name ∈ back, machine.step.world.handleNames.get? name = some id
  gone : machine.step.world.guards.get? guard = none
  handles : machine.step.world.handles = machine.world.handles
  awaiting : machine.step.stage.awaiting = machine.stage.awaiting
  log : machine.step.log = machine.log
  stack : machine.step.stack = machine.stack

private theorem disarms_of_guard {guard : Name} {back : Option Name}
    (control : machine.control = .execute (.handle (.disarm guard back)))
    (guarded : machine.world.guards.get? guard = some ⟨id⟩) : machine.Disarms guard back id := by
  have stepped : machine.step = machine.execute (.handle (.disarm guard back)) :=
    step_of_execute control
  simp only [execute, executeHandle, onGuard, guarded] at stepped
  cases back with
  | none =>
    constructor <;> rw [stepped]
    case given =>
      intro name given
      cases given
    case gone => exact Table.get?_erase_self ..
    all_goals rfl
  | some back =>
    constructor <;> rw [stepped]
    case given =>
      rintro name ⟨⟩
      exact Table.get?_set_self ..
    case gone => exact Table.get?_erase_self ..
    all_goals rfl

/-! ### Cancelling over whole courses -/

/-- How handles are cancelled in a course. -/
structure OneShot (passed : List Machine) (machine : Machine) : Prop where
  /-- Every handle was made by one step. -/
  made : ∀ id < machine.world.handles.size, ∃ earlier making later,
    passed = earlier ++ making :: later ∧ making.world.handles.size = id ∧
      ∃ action, making.Makes action
  /-- Every name, guard and registration stands for one of them at every moment. -/
  grounded : ∀ middle ∈ passed ++ [machine], middle.Grounded
  /-- The first attempt takes the action out of the handle, runs it on top of its own call, and is
  the one that answers that it had an effect. -/
  first : ∀ earlier making between trying later,
    passed = earlier ++ making :: between ++ trying :: later →
      ∀ id action answer, making.world.handles.size = id → making.Makes action →
        trying.TriesWith id answer → (∀ sooner ∈ between, ¬ sooner.Tries id) →
          trying.Runs trying.step (answer true) action ∧
            trying.step.world.handles[id]? = some ⟨true, none⟩ ∧
            Answers trying.stack (later ++ [machine]) (answer true)
  /-- Any other attempt runs nothing and answers so. -/
  others : ∀ before trying later, passed = before ++ trying :: later →
    ∀ id answer, trying.TriesWith id answer → (∃ sooner ∈ before, sooner.Tries id) →
      trying.Runs trying.step (answer false) none ∧
        trying.step.world.handles = trying.world.handles ∧
        Answers trying.stack (later ++ [machine]) (answer false)
  /-- A handle is seen to be cancelled from the first attempt on, and not before. -/
  seen : ∀ before middle later, passed ++ [machine] = before ++ middle :: later →
    ∀ id < middle.world.handles.size,
      ((∀ sooner ∈ before, ¬ sooner.Tries id) → middle.Reveals id false) ∧
        ((∃ sooner ∈ before, sooner.Tries id) → middle.Reveals id true)
  /-- No step runs what was put into a handle but the first attempt at one. -/
  runs : ∀ before middle later, passed = before ++ middle :: later →
    middle.step.cancellations ≠ middle.cancellations →
      ∃ id, middle.Tries id ∧ ∀ sooner ∈ before, ¬ sooner.Tries id
  /-- Nor is an awaiter withdrawn but by the first attempt at its handle. -/
  withdraws : ∀ before middle next later,
    passed ++ [machine] = before ++ middle :: next :: later →
      ∀ source queue changed ticket fate, middle.stage.awaiting source = some queue →
        next.stage.awaiting source = some changed → queue.fate? ticket = some fate →
          fate ≠ .withdrawn → changed.fate? ticket = some .withdrawn →
            ∃ making ∈ before, making.Makes (some (.withdraw source ticket)) ∧
              middle.Tries making.world.handles.size ∧
              ∀ sooner ∈ before, ¬ sooner.Tries making.world.handles.size
  /-- A guard that is disarmed gives back the handle for which it was made. -/
  disarms : ∀ before guarding between disarming later,
    passed = before ++ guarding :: between ++ disarming :: later →
      ∀ name guard id back, guarding.control = .execute (.handle (.guard name guard)) →
        guarding.world.handleNames.get? name = some id →
        (∀ middle ∈ between, ¬ middle.Regards guard) →
        disarming.control = .execute (.handle (.disarm guard back)) →
          disarming.Disarms guard back id

private theorem Course.reveals (course : Course passed machine)
    (known : id < machine.world.handles.size) :
    ((∀ sooner ∈ passed, ¬ sooner.Tries id) → machine.Reveals id false) ∧
      ((∃ sooner ∈ passed, sooner.Tries id) → machine.Reveals id true) := by
  have reveals {flag : Bool} (cancelled : machine.world.handles.isCancelled id = flag) :
      machine.Reveals id flag := by
    refine ⟨cancelled, fun name named => ?_, fun name guarded => ?_⟩
    · simp [World.view, named, cancelled]
    · simp [World.view, guarded, cancelled]
  have iff := course.isCancelled_iff known
  refine ⟨fun untried => reveals ?_, fun tried => reveals (iff.mpr tried)⟩
  rw [Bool.eq_false_iff, ne_eq, iff]
  rintro ⟨sooner, member, tries⟩
  exact untried sooner member tries

private theorem Runs.atop {given : Answer} (runs : machine.Runs after given action) :
    Over (.replying given :: machine.stack) after := by
  unfold Runs at runs
  rcases action with _ | ⟨name, body⟩ | ⟨source, ticket⟩
  · exact ⟨[], runs.2.2.1.symm⟩
  · exact ⟨[.body body], runs.2.2.1.symm⟩
  · exact ⟨[], runs.2.2.1.symm⟩

/-- A way on from a command that starts is one from the machine after that step. -/
theorem Course.goes_step {before during rest : List Machine} {starting ending : Machine}
    {command : Command} (course : Course passed machine)
    (control : starting.control = .execute command)
    (split : passed ++ [machine] = before ++ starting :: during ++ ending :: rest) :
    starting.step.Goes during ending := by
  obtain ⟨_, _, _, goes⟩ := course.upTo split
  have onward := goes.split.2
  cases during with
  | nil =>
    obtain ⟨-, move⟩ := goes.latest
    rw [move.eq_step_of_execute control]
    exact .stays
  | cons next during =>
    have whole : starting.Goes ([starting] ++ next :: during) ending := onward
    have move := whole.split.1
    rw [← List.nil_append [starting]] at move
    rw [← move.latest.2.eq_step_of_execute control]
    exact whole.split.2

/-- The call of an attempt answers what it is to answer. -/
private theorem Course.answers {before later : List Machine} {trying : Machine} {given : Answer}
    (course : Course (before ++ trying :: later) machine) (attempt : trying.TriesWith id answer)
    (runs : trying.Runs trying.step given action) :
    Answers trying.stack (later ++ [machine]) given := by
  intro during ending rest split inside done
  obtain ⟨command, control⟩ := attempt.executes
  have whole : before ++ trying :: later ++ [machine] =
      before ++ trying :: during ++ ending :: rest := by simp [split]
  exact (course.goes_step control whole).replies runs.atop inside done

/-- In every course, a handle cancels once: of all attempts to cancel it, by whichever name or
guard, the first one alone has an effect, and from then on the handle is seen to be cancelled, even
while its action runs and whatever becomes of that. -/
theorem cancels_once (course : Course passed machine) : OneShot passed machine := by
  constructor
  case made => exact fun id known => course.exists_makes known
  case grounded =>
    intro middle member
    obtain ⟨before, later, split⟩ := List.append_of_mem member
    exact (course.upTo split).grounded
  case first =>
    rintro earlier making between trying later split id action answer rfl makes attempt untried
    have whole : passed = (earlier ++ making :: between) ++ trying :: later := by simp [split]
    subst whole
    have early := course.before
    rcases early.handle_since makes with ⟨-, held⟩ | ⟨⟨sooner, member, tries⟩, -⟩
    · obtain ⟨runs, handles⟩ := attempt.effect early.grounded held
      refine ⟨runs, ?_, course.answers attempt runs⟩
      rw [handles, Stage.getElem?_cancel, if_pos rfl, held]
      rfl
    · exact absurd tries (untried sooner member)
  case others =>
    rintro before trying later rfl id answer attempt ⟨sooner, member, tries⟩
    have early := course.before
    rcases early.handle_cases (attempt.known early.grounded) with ⟨untried, -⟩ | ⟨-, held⟩
    · exact absurd tries (untried sooner member)
    · obtain ⟨runs, handles⟩ := attempt.effect early.grounded held
      refine ⟨runs, ?_, course.answers attempt runs⟩
      rw [handles]
      refine Array.ext_getElem? fun other => ?_
      rw [Stage.getElem?_cancel]
      split
      · next same =>
        rw [same, held]
        rfl
      · rfl
  case seen =>
    intro before middle later split id known
    exact (course.upTo split).reveals known
  case runs =>
    rintro before middle later rfl logged
    have early := course.before
    by_cases tried : ∃ id, middle.Tries id
    · obtain ⟨id, answer, attempt⟩ := tried
      refine ⟨id, ⟨answer, attempt⟩, fun sooner member tries => logged ?_⟩
      rcases early.handle_cases (attempt.known early.grounded) with ⟨untried, -⟩ | ⟨-, held⟩
      · exact absurd tries (untried sooner member)
      · obtain ⟨⟨-, log, -⟩, -⟩ := attempt.effect early.grounded held
        exact congrArg (List.filterMap Event.cancelled?) log
    · exact absurd (cancellations_step (not_exists.mp tried)) logged
  case withdraws =>
    intro before middle next later split source queue changed ticket fate found left known
      present gone
    obtain ⟨early, move⟩ := course.adjacent split
    obtain ⟨id, ⟨answer, attempt⟩, held⟩ :=
      move.withdraws early.life.attended found left known present gone
    rcases early.handle_cases (attempt.known early.grounded) with
      ⟨untried, making, member, rfl, action, makes, same⟩ | ⟨-, empty⟩
    · cases held.symm.trans same
      exact ⟨making, member, makes, ⟨answer, attempt⟩, untried⟩
    · cases held.symm.trans empty
  case disarms =>
    rintro before guarding between disarming later rfl name guard id back guards named elsewhere
      disarm
    have split : before ++ guarding :: between ++ disarming :: later ++ [machine] =
      before ++ guarding :: between ++ disarming :: (later ++ [machine]) := by simp
    have early : Course before guarding := by
      have whole := course
      rw [List.append_assoc, List.cons_append] at whole
      exact whole.before
    have kept := (course.goes_step guards split).guard elsewhere
    rw [guard_of_guards early.grounded guards named] at kept
    exact disarms_of_guard disarm kept

/-- A handle whose action cancels the handle again and then panics. It is cancelled by another name
while a guard stands for it too. -/
def cancelsFromWithin : Machine :=
  let body : Body :=
    [.handle (.create "h" [.handle (.cancel "h"), .panic .wordless]),
      .handle (.share "h" "k"),
      .handle (.guard "h" "g"),
      .handle (.cancel "k")]
  start { scripts := ⟨[("main", body)]⟩ } none (.call "main")

/-- Afterwards the guard is given up. -/
def releasesAfterwards : Machine :=
  start (advanced 22 cancelsFromWithin).world none (.handle (.release "g"))

theorem cancels_once_from_within :
    OneShot (trail 22 cancelsFromWithin ++ [advanced 22 cancelsFromWithin] ++
        trail 3 releasesAfterwards) (advanced 3 releasesAfterwards) ∧
      (advanced 22 cancelsFromWithin).cancellations = ["h"] ∧
      (advanced 3 releasesAfterwards).cancellations = [] := by
  have done : (advanced 22 cancelsFromWithin).outcome? = some (.panicked .wordless) := by
    with_unfolding_all rfl
  have begins : (advanced 22 cancelsFromWithin).Goes [advanced 22 cancelsFromWithin]
      releasesAfterwards := .moves .stays (.command done _)
  have course : Course (trail 22 cancelsFromWithin ++ [advanced 22 cancelsFromWithin] ++
      trail 3 releasesAfterwards) (advanced 3 releasesAfterwards) :=
    ⟨_, _, _, ((goes_trail 22 cancelsFromWithin).trans begins).trans (goes_trail 3 _)⟩
  exact ⟨cancels_once course, by with_unfolding_all rfl, by with_unfolding_all rfl⟩

end Machine

end LiveTree.Session
