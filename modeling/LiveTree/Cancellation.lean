import LiveTree.Text.Layout

/-! One-shot cancellation. A handle is cancelled at most once, whoever holds it; the action that
was put into it leaves the handle at that moment, so it can be run at most once, and it has left
before it runs. A guard stands for a handle and cancels it when the guard is given up. -/
namespace LiveTree

/-- A capability to cancel something once. -/
structure Handle (α : Type) where
  cancelled : Bool := false
  action : Option α := none

/-- The outcome of an attempt to cancel: whether this attempt was the first, and the action that
is now to be run. -/
structure Attempt (α : Type) where
  won : Bool
  action : Option α

namespace Handle

variable {α : Type}

/-- A handle that runs an action when it is cancelled. -/
def forAction (action : α) : Handle α := { action := some action }

/-- A handle with nothing to run. -/
def idle : Handle α := {}

/-- One attempt to cancel. -/
def cancel (handle : Handle α) : Attempt α × Handle α :=
  if handle.cancelled then (⟨false, none⟩, handle)
  else (⟨true, handle.action⟩, { cancelled := true, action := none })

/-- The full text of a handle; its action has none. -/
def describe (handle : Handle α) : String :=
  Text.openRecord "CancellationHandle" [("cancelled", Text.truth handle.cancelled)]

@[simp]
theorem cancelled_cancel (handle : Handle α) : handle.cancel.2.cancelled = true := by
  unfold cancel
  split <;> simp_all

theorem won_cancel_iff (handle : Handle α) :
    handle.cancel.1.won = true ↔ handle.cancelled = false := by
  unfold cancel
  split <;> simp_all

end Handle

/-- The name of a handle among all handles of a host. -/
abbrev HandleId := Nat

/-- All handles of a host, in the order of their creation. -/
abbrev Handles (α : Type) := Array (Handle α)

namespace Handles

variable {α : Type}

/-- Adds a handle. -/
def create (handles : Handles α) (handle : Handle α) : HandleId × Handles α :=
  (handles.size, handles.push handle)

/-- Whether a handle has been cancelled. -/
def isCancelled (handles : Handles α) (id : HandleId) : Bool :=
  match handles[id]? with
  | some handle => handle.cancelled
  | none => false

/-- One attempt to cancel a handle. -/
def cancel (handles : Handles α) (id : HandleId) : Attempt α × Handles α :=
  match handles[id]? with
  | some handle => (handle.cancel.1, handles.setIfInBounds id handle.cancel.2)
  | none => (⟨false, none⟩, handles)

end Handles

/-- A guard stands for a handle; to give it up cancels the handle, to disarm it gives the handle
back. -/
structure Guard where
  handle : HandleId
deriving DecidableEq, Repr

/-- The full text of a guard, given that of the handle it stands for. -/
def Guard.describe (handleText : String) : String :=
  Text.record "CancelGuard" [("handle", Text.optional (some handleText))]

end LiveTree
