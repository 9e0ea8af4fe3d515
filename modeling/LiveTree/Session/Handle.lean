import LiveTree.Session.Machine

/-! Cancellation handles and guards in a session. -/
namespace LiveTree.Session.Machine

/-- Works on the handle of a name. -/
def onHandle (machine : Machine) (name : Name) (work : HandleId → Handle CancelAction → Machine) :
    Machine :=
  match machine.world.handleNames.get? name with
  | none => machine.missKind .handle
  | some id =>
    match machine.world.handles[id]? with
    | none => machine.missKind .handle
    | some handle => work id handle

/-- Works on the guard of a name. -/
def onGuard (machine : Machine) (name : Name) (work : Guard → Machine) : Machine :=
  match machine.world.guards.get? name with
  | none => machine.missKind .guard
  | some guard => work guard

/-- Binds a name to a handle. -/
def nameHandle (machine : Machine) (name : Name) (id : HandleId) : Machine :=
  machine.withWorld { machine.world with handleNames := machine.world.handleNames.set name id }

/-- Creates a handle under a name. -/
def createHandle (machine : Machine) (name : Name) (handle : Handle CancelAction) : Machine :=
  let (id, handles) := machine.world.handles.create handle
  ((machine.withWorld { machine.world with handles }).nameHandle name id).reply .ok

/-- Puts a guard under a name. A guard that was there is given up afterwards. -/
def storeGuard (machine : Machine) (name : Name) (guard : Guard) : Machine :=
  let former := machine.world.guards.get? name
  let machine := machine.withWorld
    { machine.world with guards := machine.world.guards.set name guard }
  match former with
  | some former => (machine.push (.replying .ok)).cancel former.handle
  | none => machine.reply .ok

/-- Takes a guard away from its name. -/
def removeGuard (machine : Machine) (name : Name) : Machine :=
  machine.withWorld { machine.world with guards := machine.world.guards.erase name }

/-- Starts a command on a handle or guard. -/
def executeHandle (machine : Machine) : HandleCommand Body → Machine
  | .create name action => machine.createHandle name (.forAction (.run name action))
  | .createIdle name => machine.createHandle name .idle
  | .share name other =>
    machine.onHandle name fun id _ => (machine.nameHandle other id).reply .ok
  | .cancel name =>
    machine.onHandle name fun id handle =>
      (machine.push (.replying (.flag (!handle.cancelled)))).cancel id
  | .describe name => machine.onHandle name fun _ handle => machine.reply (.text handle.describe)
  | .guard name guard =>
    machine.onHandle name fun id _ => machine.storeGuard guard ⟨id⟩
  | .disarm name handle =>
    machine.onGuard name fun guard =>
      let machine := machine.removeGuard name
      let machine := match handle with
        | some handle => machine.nameHandle handle guard.handle
        | none => machine
      machine.reply (.flag (machine.world.handles.isCancelled guard.handle))
  | .release name =>
    machine.onGuard name fun guard =>
      ((machine.removeGuard name).push (.replying .ok)).cancel guard.handle
  | .describeGuard name =>
    machine.onGuard name fun guard =>
      match machine.world.handles[guard.handle]? with
      | some handle => machine.reply (.text (Guard.describe handle.describe))
      | none => machine.missKind .guard

/-- Stores the handle of a registration whose callbacks are done, and answers. -/
def finishRegistration (machine : Machine) (id : HandleId) (name : Option Name) : Machine :=
  let machine := match name with
    | some name => machine.nameHandle name id
    | none => machine
  machine.reply .ok

end LiveTree.Session.Machine
