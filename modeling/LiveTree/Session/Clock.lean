import LiveTree.Session.Machine

/-! Frame clocks in a session. -/
namespace LiveTree.Session.Machine

open LiveTree.Frame

/-- Replaces the state of a clock. -/
def setClock (machine : Machine) (id : Nat) (core : Clock Waiter) : Machine :=
  machine.withWorld { machine.world with
    clocks := machine.world.clocks.modify id fun hosted => { hosted with core } }

/-- Works on the clock of a name. -/
def onClock (machine : Machine) (name : Name) (work : Nat → HostedClock → Machine) : Machine :=
  match machine.world.clockNames.get? name with
  | none => machine.missKind .clock
  | some id =>
    match machine.world.clocks[id]? with
    | none => machine.missKind .clock
    | some hosted => work id hosted

/-- Binds a name to a clock. -/
def nameClock (machine : Machine) (name : Name) (id : Nat) : Machine :=
  machine.withWorld { machine.world with clockNames := machine.world.clockNames.set name id }

/-- Starts a command on a clock. -/
def executeClock (machine : Machine) : ClockCommand Body → Machine
  | .create name wake =>
    let id := machine.world.clocks.size
    let machine := machine.withWorld
      { machine.world with clocks := machine.world.clocks.push ⟨{}, name, wake⟩ }
    (machine.nameClock name id).reply .ok
  | .share name other =>
    machine.onClock name fun id _ => (machine.nameClock other id).reply .ok
  | .describe name =>
    machine.onClock name fun _ hosted => machine.reply (.text hosted.core.describe)
  | .register name item handle ticked refused =>
    machine.onClock name fun id hosted =>
      match hosted.core.awaiters.register ⟨item, ticked, refused⟩ with
      | .error closed => machine.reply (.closed closed)
      | .ok registration =>
        let machine := (machine.setClock id ⟨registration.queue⟩).keepHandle (.clock id)
          registration.ticket handle
        if registration.first then machine.callBack (.requested hosted.name) hosted.wake
        else machine.proceed
  | .send name time =>
    machine.onClock name fun id hosted =>
      ((machine.setClock id (hosted.core.send time)).push (.clock id)).proceed
  | .close name reason =>
    machine.onClock name fun id hosted =>
      ((machine.setClock id (hosted.core.close ⟨reason⟩)).push (.clock id)).proceed

/-- Reports what was broadcast. -/
def diagnoseTick (machine : Machine) (served : Nat) : Tick → Machine
  | .frame time => machine.diagnose (.frameSent time served)
  | .closed _ => machine.diagnose (.clockClosed served)

/-- Lets the innermost frame or closing of a clock go on. -/
def continueClock (machine : Machine) (id : Nat) : Machine :=
  match machine.world.clocks[id]? with
  | none => machine.pop.reply (.count 0)
  | some hosted =>
    match hosted.core.turn with
    | .handOver (.frame time) waiter core =>
      (machine.setClock id core).callBack (.ticked waiter.item time) waiter.served
    | .handOver (.closed closed) waiter core =>
      (machine.setClock id core).callBack (.closed waiter.item closed) waiter.refused
    | .finished tick served core =>
      ((machine.setClock id core).diagnoseTick served tick).pop.reply (.count served)
    | .idle => machine.pop.reply (.count 0)

/-- A panic leaves the innermost frame or closing of a clock. -/
def unwindClock (machine : Machine) (id : Nat) : Machine :=
  match machine.world.clocks[id]? with
  | none => machine.pop
  | some hosted => (machine.setClock id hosted.core.abandon).pop

end LiveTree.Session.Machine
