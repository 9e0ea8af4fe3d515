import LiveTree.Session.Machine

/-! Retained objects in a session. -/
namespace LiveTree.Session.Machine

open Lifecycle (ObjectId)

/-- Works on the object of a name. -/
def onObject (machine : Machine) (name : Name) (work : ObjectId → Machine) : Machine :=
  match machine.world.objectNames.get? name with
  | none => machine.missKind .object
  | some id => work id

/-- Binds a name to an object. -/
def nameObject (machine : Machine) (name : Name) (id : ObjectId) : Machine :=
  machine.withWorld { machine.world with objectNames := machine.world.objectNames.set name id }

/-- Moves an object and tells it; an illegal move is passed to `refused`. -/
def advance (machine : Machine) (id : ObjectId) (target : Lifecycle.State)
    (refused : Lifecycle.IllegalMove → Machine) (allowed : Machine → Machine) : Machine :=
  match machine.world.objects.advance id target with
  | .error illegal => refused illegal
  | .ok objects => (allowed (machine.withWorld { machine.world with objects })).tellState id target

/-- Starts a command on an object. -/
def executeObject (machine : Machine) : ObjectCommand Body → Machine
  | .create name reactions =>
    let (id, objects) := machine.world.objects.create ⟨name, reactions⟩
    ((machine.withWorld { machine.world with objects }).nameObject name id).reply
      (.count id.number)
  | .share name other =>
    machine.onObject name fun id => (machine.nameObject other id).reply .ok
  | .compare name other =>
    machine.onObject name fun id =>
      match machine.world.objectNames.get? other with
      | none => machine.miss .partner
      | some otherId => machine.reply (.flag (id == otherId))
  | .advance name target =>
    machine.onObject name fun id =>
      machine.advance id target (fun illegal => machine.reply (.illegal illegal))
        (·.push (.replying .ok))
  | .poke name event =>
    machine.onObject name fun id =>
      match event with
      | none => machine.reply .ok
      | some event => (machine.push (.replying .ok)).tell id event
  | .describe name =>
    machine.onObject name fun id => machine.reply (.text (machine.world.objects.describe id))

end LiveTree.Session.Machine
