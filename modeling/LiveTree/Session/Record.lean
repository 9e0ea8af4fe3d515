import LiveTree.Session.Pool

/-! Entries, position hashers and descriptor arenas in a session. Commands on them call nothing
back. -/
namespace LiveTree.Session.Machine

/-- Starts a command on an entry. -/
def executeEntry (machine : Machine) : EntryCommand → Machine
  | .setHandle name handle =>
    machine.onEntry name fun entry => (machine.storeEntry name { entry with handle }).reply .ok
  | .takeApart name =>
    machine.onEntry name fun entry =>
      (machine.withWorld
        { machine.world with entries := machine.world.entries.erase name }).reply
        (.parts entry.handle entry.parameter)
  | .describe name =>
    machine.onEntry name fun entry => machine.reply (.text (entry.describe Text.quoted toString))

/-- Works on the hasher of a name. -/
def onHasher (machine : Machine) (name : Name) (work : Position.Hasher → Machine) : Machine :=
  match machine.world.hashers.get? name with
  | none => machine.missKind .hasher
  | some hasher => work hasher

/-- Puts a hasher under a name. -/
def storeHasher (machine : Machine) (name : Name) (hasher : Position.Hasher) : Machine :=
  machine.withWorld { machine.world with hashers := machine.world.hashers.set name hasher }

/-- The shift per level that a new hasher is to use. -/
def chosenShift : Option Nat → Except InvalidArgument Position.Shift
  | none => .ok .defaultLevel
  | some bits => Position.Shift.ofBits bits

/-- Starts a command on a hasher. -/
def executeHasher (machine : Machine) : HasherCommand → Machine
  | .create name perLevel root =>
    match chosenShift perLevel with
    | .error invalid => machine.reply (.invalid invalid)
    | .ok shift => (machine.storeHasher name (.start (root.getD .empty) shift)).reply .ok
  | .copy name other =>
    machine.onHasher name fun hasher => (machine.storeHasher other hasher).reply .ok
  | .push name segment =>
    machine.onHasher name fun hasher =>
      let hasher := hasher.push segment
      (machine.storeHasher name hasher).reply (.hash hasher.current)
  | .pop name =>
    machine.onHasher name fun hasher =>
      match hasher.pop with
      | none => machine.reply (.popped none)
      | some (segment, hasher) => (machine.storeHasher name hasher).reply (.popped (some segment))
  | .path name => machine.onHasher name fun hasher => machine.reply (.path hasher.path)
  | .describe name => machine.onHasher name fun hasher => machine.reply (.text hasher.describe)

/-- Works on the arena of a name. -/
def onArena (machine : Machine) (name : Name) (work : Arena Int → Machine) : Machine :=
  match machine.world.arenas.get? name with
  | none => machine.missKind .arena
  | some arena => work arena

/-- Puts an arena under a name. -/
def storeArena (machine : Machine) (name : Name) (arena : Arena Int) : Machine :=
  machine.withWorld { machine.world with arenas := machine.world.arenas.set name arena }

/-- Starts a command on an arena. -/
def executeArena (machine : Machine) : ArenaCommand → Machine
  | .create name => (machine.storeArena name {}).reply .ok
  | .register name label arity content =>
    machine.onArena name fun arena =>
      let (id, arena) := arena.register label ⟨arity⟩ content
      (machine.storeArena name arena).reply (.count id.raw)
  | .get name descriptor =>
    machine.onArena name fun arena =>
      machine.reply (.found (arena.contains descriptor) (arena.get? descriptor))
  | .list name => machine.onArena name fun arena => machine.reply (.listing arena.toList)
  | .describe name => machine.onArena name fun arena => machine.reply (.text arena.describe)

end LiveTree.Session.Machine
