import LiveTree.Session.Object

/-! Batches of retirements in a session. -/
namespace LiveTree.Session.Machine

open Lifecycle (RetireBatch Retirement)

/-- Works on the batch of a name. -/
def onBatch (machine : Machine) (name : Name) (work : RetireBatch → Machine) : Machine :=
  match machine.world.batches.get? name with
  | none => machine.missKind .batch
  | some batch => work batch

/-- Takes a batch away from its name. -/
def removeBatch (machine : Machine) (name : Name) : Machine :=
  machine.withWorld { machine.world with batches := machine.world.batches.erase name }

/-- Adds a batch that has left its own name to the batch of a name. Without such a batch it is
given up. -/
def mergeBatch (machine : Machine) (name : Name) (source : RetireBatch) : Machine :=
  match machine.world.batches.get? name with
  | none => (machine.push (.replying (.missing (.component .batch)))).discardBatch source
  | some batch =>
    (machine.withWorld
      { machine.world with batches := machine.world.batches.set name (batch.extend source) }).reply
      .ok

/-- Starts a command on a batch. -/
def executeBatch (machine : Machine) : BatchCommand → Machine
  | .create name => machine.storeBatch name {}
  | .extend name source =>
    match machine.world.batches.get? source with
    | none => machine.miss .source
    | some batch => (machine.removeBatch source).mergeBatch name batch
  | .dispatch name =>
    machine.onBatch name fun batch =>
      ((machine.removeBatch name).push (.retiring batch.deliver true)).proceed
  | .discard name =>
    machine.onBatch name fun batch =>
      ((machine.removeBatch name).push (.replying .ok)).discardBatch batch
  | .describe name =>
    machine.onBatch name fun batch => machine.reply (.text (batch.describe machine.world.objects))

/-- Lets the innermost delivery of retirements go on. -/
def continueRetirement (machine : Machine) (delivery : Retirement) (counted : Bool) : Machine :=
  match delivery.next? with
  | none =>
    if counted then machine.pop.reply (.count delivery.retired) else machine.pop.proceed
  | some (object, delivery) =>
    machine.advance object .retired
      (fun illegal =>
        ((machine.become (.retiring delivery counted)).diagnose (.retirementSkipped illegal)).proceed)
      (·.become (.retiring delivery.delivered counted))

end LiveTree.Session.Machine
