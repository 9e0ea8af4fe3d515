import LiveTree.Lifecycle.State
import LiveTree.Text.Layout

/-! Retained objects. The registry keeps the state of every object beside the observer that is
told of its moves. A move changes the state before the observer hears of it, and an illegal move
changes nothing. -/
namespace LiveTree.Lifecycle

/-- The identity of a retained object: how many objects were created before it. -/
structure ObjectId where
  index : Nat
deriving DecidableEq, Repr

/-- Objects are numbered from one. -/
def ObjectId.number (id : ObjectId) : Nat := id.index + 1

/-- A move that the state of an object does not allow. -/
structure IllegalMove where
  object : Nat
  source : State
  target : State
deriving DecidableEq, Repr

namespace IllegalMove

/-- The message of an illegal move. -/
def message (illegal : IllegalMove) : String :=
  "illegal lifecycle transition for object #" ++ toString illegal.object ++ ": "
    ++ illegal.source.text ++ " -> " ++ illegal.target.text

/-- The full text of an illegal move. -/
def describe (illegal : IllegalMove) : String :=
  Text.record "LifecycleError"
    [("object", toString illegal.object), ("from", illegal.source.describe),
      ("to", illegal.target.describe)]

end IllegalMove

/-- An object that is told of its moves through an observer of type `ω`. -/
structure Retained (ω : Type) where
  state : State
  observer : ω

/-- All retained objects, in the order of their creation. -/
structure Registry (ω : Type) where
  objects : Array (Retained ω) := #[]

namespace Registry

variable {ω : Type}

def get? (registry : Registry ω) (id : ObjectId) : Option (Retained ω) := registry.objects[id.index]?

/-- The state of an object; an object that was never created is unretained. -/
def state (registry : Registry ω) (id : ObjectId) : State :=
  match registry.get? id with
  | some object => object.state
  | none => .unretained

/-- Creates an unretained object. -/
def create (registry : Registry ω) (observer : ω) : ObjectId × Registry ω :=
  (⟨registry.objects.size⟩, ⟨registry.objects.push ⟨.unretained, observer⟩⟩)

/-- Moves an object to its next state, unless its present state forbids the move. -/
def advance (registry : Registry ω) (id : ObjectId) (next : State) :
    Except IllegalMove (Registry ω) :=
  if (registry.state id).canBecome next then
    .ok ⟨registry.objects.modify id.index fun object => { object with state := next }⟩
  else .error ⟨id.number, registry.state id, next⟩

/-- The full text of an object; its observer has none. -/
def describe (registry : Registry ω) (id : ObjectId) : String :=
  Text.openRecord "RetainedObject"
    [("id", toString id.number), ("state", (registry.state id).describe)]

/-- The full text of a list of objects. -/
def describeAll (registry : Registry ω) (ids : List ObjectId) : String :=
  Text.listed (ids.map registry.describe)

theorem advance_eq_error_iff {registry : Registry ω} {id : ObjectId} {next : State}
    {illegal : IllegalMove} :
    registry.advance id next = .error illegal ↔
      (registry.state id).canBecome next = false ∧
        illegal = ⟨id.number, registry.state id, next⟩ := by
  unfold advance
  split
  · next legal => simp [legal]
  · next illegal =>
    simp only [Except.error.injEq]
    exact ⟨fun same => ⟨by simpa using illegal, same.symm⟩, fun same => same.2.symm⟩

/-- A move leaves every other object as it was. -/
theorem state_advance_of_ne {registry moved : Registry ω} {id other : ObjectId} {next : State}
    (legal : registry.advance id next = .ok moved) (different : other ≠ id) :
    moved.state other = registry.state other := by
  unfold advance at legal
  split at legal
  · cases legal
    have apart : id.index ≠ other.index := by
      intro same
      exact different (by cases id; cases other; simp_all)
    simp [state, get?, Array.getElem?_modify, apart]
  · cases legal

/-- A moved object is in the state it was to move to. -/
theorem state_advance_self {registry moved : Registry ω} {id : ObjectId} {next : State}
    (legal : registry.advance id next = .ok moved) (present : (registry.get? id).isSome) :
    moved.state id = next := by
  unfold advance at legal
  split at legal
  · cases legal
    obtain ⟨object, found⟩ := Option.isSome_iff_exists.mp present
    simp only [get?] at found
    simp [state, get?, Array.getElem?_modify, found]
  · cases legal

/-- A new object is in the state of one that was never created, and no other changes. -/
@[simp]
theorem state_create (registry : Registry ω) (observer : ω) (id : ObjectId) :
    (registry.create observer).2.state id = registry.state id := by
  by_cases new : id.index = registry.objects.size
  · simp [create, state, get?, new]
  · simp [create, state, get?, Array.getElem?_push, new]

/-- A new object leaves every other object as it was. -/
theorem get?_create_of_isSome {registry : Registry ω} {id : ObjectId} (observer : ω)
    (present : (registry.get? id).isSome) :
    (registry.create observer).2.get? id = registry.get? id := by
  obtain ⟨object, found⟩ := Option.isSome_iff_exists.mp present
  obtain ⟨inside, -⟩ := Array.getElem?_eq_some_iff.mp found
  simp [create, get?, Array.getElem?_push, Nat.ne_of_lt inside]

end Registry

end LiveTree.Lifecycle
