import LiveTree.Session.Run

/-! Looking components up. A command names the component that it works on, which may be missing or
in use. What can be seen of the machine is settled once it is settled for each of these cases.
Commands on handles and guards are told apart further, by all that they come to. -/
namespace LiveTree.Session.Machine

open Awaiting

variable {β : Type} {seen : Machine → β} {value : β} {machine : Machine} {name : Name}

theorem onQueue_eq {work : Nat → Queue Waiter Delivery → Machine}
    (missing : seen (machine.missKind .queue) = value)
    (works : ∀ id queue, seen (work id queue) = value) :
    seen (machine.onQueue name work) = value := by
  unfold onQueue
  split
  · exact missing
  · split
    · exact missing
    · exact works _ _

theorem onScheduler_eq {work : Nat → HostedScheduler → Machine}
    (missing : seen (machine.missKind .scheduler) = value)
    (works : ∀ id hosted, seen (work id hosted) = value) :
    seen (machine.onScheduler name work) = value := by
  unfold onScheduler
  split
  · exact missing
  · split
    · exact missing
    · exact works _ _

theorem onClock_eq {work : Nat → HostedClock → Machine}
    (missing : seen (machine.missKind .clock) = value)
    (works : ∀ id hosted, seen (work id hosted) = value) :
    seen (machine.onClock name work) = value := by
  unfold onClock
  split
  · exact missing
  · split
    · exact missing
    · exact works _ _

theorem onHandle_eq {work : HandleId → Handle CancelAction → Machine}
    (missing : seen (machine.missKind .handle) = value)
    (works : ∀ id handle, seen (work id handle) = value) :
    seen (machine.onHandle name work) = value := by
  unfold onHandle
  split
  · exact missing
  · split
    · exact missing
    · exact works _ _

theorem onDispatcher_eq {work : Nat → Lifecycle.Dispatcher → Machine}
    (missing : seen (machine.missKind .dispatcher) = value)
    (busy : seen (machine.reply .busy) = value)
    (works : ∀ id dispatcher, seen (work id dispatcher) = value) :
    seen (machine.onDispatcher name work) = value := by
  unfold onDispatcher
  split
  · exact missing
  · split
    · exact busy
    · exact works _ _

theorem onPool_eq {work : Nat → Pool → Machine}
    (missing : seen (machine.missKind .pool) = value) (busy : seen (machine.reply .busy) = value)
    (works : ∀ id pool, seen (work id pool) = value) :
    seen (machine.onPool name work) = value := by
  unfold onPool
  split
  · exact missing
  · split
    · exact busy
    · exact works _ _

theorem onGuard_eq {work : Guard → Machine} (missing : seen (machine.missKind .guard) = value)
    (works : ∀ guard, seen (work guard) = value) : seen (machine.onGuard name work) = value := by
  unfold onGuard
  split
  · exact missing
  · exact works _

theorem onObject_eq {work : Lifecycle.ObjectId → Machine}
    (missing : seen (machine.missKind .object) = value)
    (works : ∀ id, seen (work id) = value) : seen (machine.onObject name work) = value := by
  unfold onObject
  split
  · exact missing
  · exact works _

theorem onBatch_eq {work : Lifecycle.RetireBatch → Machine}
    (missing : seen (machine.missKind .batch) = value)
    (works : ∀ batch, seen (work batch) = value) : seen (machine.onBatch name work) = value := by
  unfold onBatch
  split
  · exact missing
  · exact works _

theorem onEntry_eq {work : Entry → Machine} (missing : seen (machine.missKind .entry) = value)
    (works : ∀ entry, seen (work entry) = value) : seen (machine.onEntry name work) = value := by
  unfold onEntry
  split
  · exact missing
  · exact works _

theorem onHasher_eq {work : Position.Hasher → Machine}
    (missing : seen (machine.missKind .hasher) = value)
    (works : ∀ hasher, seen (work hasher) = value) :
    seen (machine.onHasher name work) = value := by
  unfold onHasher
  split
  · exact missing
  · exact works _

theorem onArena_eq {work : Arena Int → Machine} (missing : seen (machine.missKind .arena) = value)
    (works : ∀ arena, seen (work arena) = value) : seen (machine.onArena name work) = value := by
  unfold onArena
  split
  · exact missing
  · exact works _

theorem atPlace_eq {place : Place} {work : Position.Hash → Machine}
    (missing : seen (machine.miss .place) = value)
    (works : ∀ position, seen (work position) = value) :
    seen (machine.atPlace place work) = value := by
  unfold atPlace
  split
  · exact works _
  · split
    · exact missing
    · exact works _

/-! ### Commands on handles -/

/-- What a command on handles and guards comes to. It answers at once, or the last thing it does is
an attempt to cancel a handle, on top of a call that answers. -/
inductive Handled (machine : Machine) : HandleCommand Body → Machine → Prop
  | answers (command : HandleCommand Body) (answer : Answer) :
      Handled machine command (machine.reply answer)
  | creates (name : Name) (body : Body) :
      Handled machine (.create name body) (machine.createHandle name (.forAction (.run name body)))
  | idle (name : Name) : Handled machine (.createIdle name) (machine.createHandle name .idle)
  | shares {name : Name} {id : HandleId} (other : Name)
      (named : machine.world.handleNames.get? name = some id) :
      Handled machine (.share name other) ((machine.nameHandle other id).reply .ok)
  | cancels {name : Name} {id : HandleId} {handle : Handle CancelAction}
      (named : machine.world.handleNames.get? name = some id)
      (found : machine.world.handles[id]? = some handle) :
      Handled machine (.cancel name)
        ((machine.push (.replying (.flag (!handle.cancelled)))).cancel id)
  | guards {name guard : Name} {id : HandleId}
      (named : machine.world.handleNames.get? name = some id)
      (free : machine.world.guards.get? guard = none) :
      Handled machine (.guard name guard)
        ((machine.withWorld
          { machine.world with guards := machine.world.guards.set guard ⟨id⟩ }).reply .ok)
  | replaces {name guard : Name} {id : HandleId} {former : Guard}
      (named : machine.world.handleNames.get? name = some id)
      (guarded : machine.world.guards.get? guard = some former) :
      Handled machine (.guard name guard)
        (((machine.withWorld { machine.world with
          guards := machine.world.guards.set guard ⟨id⟩ }).push (.replying .ok)).cancel
            former.handle)
  | disarms {name : Name} {guard : Guard}
      (guarded : machine.world.guards.get? name = some guard) :
      Handled machine (.disarm name none)
        ((machine.removeGuard name).reply (.flag (machine.world.handles.isCancelled guard.handle)))
  | givesBack {name : Name} {guard : Guard} (back : Name)
      (guarded : machine.world.guards.get? name = some guard) :
      Handled machine (.disarm name (some back))
        (((machine.removeGuard name).nameHandle back guard.handle).reply
          (.flag (machine.world.handles.isCancelled guard.handle)))
  | releases {name : Name} {guard : Guard}
      (guarded : machine.world.guards.get? name = some guard) :
      Handled machine (.release name)
        (((machine.removeGuard name).push (.replying .ok)).cancel guard.handle)

theorem handled (machine : Machine) (command : HandleCommand Body) :
    machine.Handled command (machine.executeHandle command) := by
  cases command with
  | create name body => exact .creates name body
  | createIdle name => exact .idle name
  | share name other =>
    simp only [executeHandle, onHandle]
    split
    · exact .answers _ _
    · next named =>
      split
      · exact .answers _ _
      · exact .shares other named
  | cancel name =>
    simp only [executeHandle, onHandle]
    split
    · exact .answers _ _
    · next named =>
      split
      · exact .answers _ _
      · next found => exact .cancels named found
  | describe name =>
    refine of_eq_true (onHandle_eq ?_ fun _ _ => ?_) <;> exact eq_true (.answers _ _)
  | guard name guard =>
    simp only [executeHandle, onHandle, storeGuard]
    split
    · exact .answers _ _
    · next named =>
      split
      · exact .answers _ _
      · split
        · next guarded => exact .replaces named guarded
        · next free => exact .guards named free
  | disarm name back =>
    simp only [executeHandle, onGuard]
    split
    · exact .answers _ _
    · next guarded =>
      cases back with
      | none => exact .disarms guarded
      | some back => exact .givesBack back guarded
  | release name =>
    simp only [executeHandle, onGuard]
    split
    · exact .answers _ _
    · next guarded => exact .releases guarded
  | describeGuard name =>
    refine of_eq_true (onGuard_eq (eq_true (.answers _ _)) fun _ => ?_)
    split <;> exact eq_true (.answers _ _)

end LiveTree.Session.Machine
