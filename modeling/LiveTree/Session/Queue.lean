import LiveTree.Session.Machine

/-! Awaiter queues in a session. -/
namespace LiveTree.Session.Machine

open Awaiting

/-- Replaces a queue. -/
def setQueue (machine : Machine) (id : Nat) (queue : Queue Waiter Delivery) : Machine :=
  machine.withWorld { machine.world with queues := machine.world.queues.setIfInBounds id queue }

/-- Works on the queue of a name. -/
def onQueue (machine : Machine) (name : Name)
    (work : Nat → Queue Waiter Delivery → Machine) : Machine :=
  match machine.world.queueNames.get? name with
  | none => machine.missKind .queue
  | some id =>
    match machine.world.queues[id]? with
    | none => machine.missKind .queue
    | some queue => work id queue

/-- Binds a name to a queue. -/
def nameQueue (machine : Machine) (name : Name) (id : Nat) : Machine :=
  machine.withWorld { machine.world with queueNames := machine.world.queueNames.set name id }

/-- Starts a command on a queue. -/
def executeQueue (machine : Machine) : QueueCommand Body → Machine
  | .create name =>
    let id := machine.world.queues.size
    let machine := machine.withWorld
      { machine.world with queues := machine.world.queues.push {} }
    (machine.nameQueue name id).reply .ok
  | .share name other =>
    machine.onQueue name fun id _ => (machine.nameQueue other id).reply .ok
  | .forget name =>
    machine.onQueue name fun _ _ =>
      (machine.withWorld
        { machine.world with queueNames := machine.world.queueNames.erase name }).reply .ok
  | .describe name => machine.onQueue name fun _ queue => machine.reply (.text queue.describe)
  | .register name item handle resumed refused first =>
    machine.onQueue name fun id queue =>
      match queue.register ⟨item, resumed, refused⟩ with
      | .error closed => machine.reply (.closed closed)
      | .ok registration =>
        let machine := (machine.setQueue id registration.queue).keepHandle (.queue id)
          registration.ticket handle
        if registration.first then machine.callBack (.first item) first else machine.proceed
  | .flush name =>
    machine.onQueue name fun id queue =>
      ((machine.setQueue id (queue.flush .resume)).push (.queue id)).proceed
  | .close name reason =>
    machine.onQueue name fun id queue =>
      ((machine.setQueue id (queue.close ⟨reason⟩ .refuse)).push (.queue id)).proceed

/-- Lets the innermost flush or closing of a queue go on. -/
def continueQueue (machine : Machine) (id : Nat) : Machine :=
  match machine.world.queues[id]? with
  | none => machine.pop.reply (.count 0)
  | some queue =>
    match queue.turn with
    | .handOver .resume waiter queue =>
      (machine.setQueue id queue).callBack (.resumed waiter.item) waiter.served
    | .handOver (.refuse closed) waiter queue =>
      (machine.setQueue id queue).callBack (.rejected waiter.item closed) waiter.refused
    | .finished _ served queue => (machine.setQueue id queue).pop.reply (.count served)
    | .idle => machine.pop.reply (.count 0)

/-- A panic leaves the innermost flush or closing of a queue. -/
def unwindQueue (machine : Machine) (id : Nat) : Machine :=
  match machine.world.queues[id]? with
  | none => machine.pop
  | some queue => (machine.setQueue id queue.abandon).pop

end LiveTree.Session.Machine
