import LiveTree.Position.Hash

/-! The hasher walks through a tree and always knows the name of the place it stands at. Entering
a level pushes a segment, leaving it pops the segment and undoes its mixing. The name of a place
can also be computed in one go from the leaf upwards. -/
namespace LiveTree.Position

/-- A walk through a tree: where it started, the name of the place now, and the segments in
between, the outermost first. -/
structure Hasher where
  perLevel : Shift
  root : Hash
  current : Hash
  path : List Segment
deriving DecidableEq, Repr

namespace Hasher

/-- A walk that stands at `root`. -/
def start (root : Hash) (perLevel : Shift) : Hasher := ⟨perLevel, root, root, []⟩

/-- A walk that stands at the empty hash and turns by the default amount per level. -/
def fresh : Hasher := start .empty .defaultLevel

def depth (hasher : Hasher) : Nat := hasher.path.length

/-- Enters the level of a segment. -/
def push (hasher : Hasher) (segment : Segment) : Hasher :=
  { hasher with
    current := hasher.current.compound segment hasher.perLevel
    path := hasher.path ++ [segment] }

/-- Leaves the innermost level and tells its segment; at the root there is none to leave. -/
def pop (hasher : Hasher) : Option (Segment × Hasher) :=
  hasher.path.getLast?.map fun segment =>
    (segment, { hasher with
      current := hasher.current.uncompound segment hasher.perLevel
      path := hasher.path.dropLast })

/-- The hasher after entering the levels of all segments in turn. -/
def pushAll (hasher : Hasher) (segments : List Segment) : Hasher := segments.foldl push hasher

/-- The full text of a hasher. -/
def describe (hasher : Hasher) : String :=
  Text.record "PositionHasher"
    [("per_level", hasher.perLevel.describe), ("root", hasher.root.describe),
      ("current", hasher.current.describe),
      ("path", Text.listed (hasher.path.map Segment.describe))]

end Hasher

/-- A path read from the leaf upwards: the hash so far and the number of levels read, counted in
32 bits. -/
structure Ascent where
  hash : Hash := .empty
  distance : BitVec 32 := 0
deriving DecidableEq, Repr

/-- Reads the next segment upwards. -/
def Ascent.climb (perLevel : Shift) (ascent : Ascent) (segment : Segment) : Ascent :=
  ⟨ascent.hash.bottomUpCompound segment (.forDepth ascent.distance.toNat perLevel),
    ascent.distance + 1⟩

/-- The name of a place from its path, the leaf first, and the root above the path. -/
def Hash.bottomUp (leafToRoot : List Segment) (root : Hash) (perLevel : Shift) : Hash :=
  let ascent := leafToRoot.foldl (Ascent.climb perLevel) {}
  ascent.hash.bottomUpCompound (.nested root) (.forDepth ascent.distance.toNat perLevel)

/-- The name of a place from its path, the outermost segment first, and the root above it. -/
def Hash.topDown (rootToLeaf : List Segment) (root : Hash) (perLevel : Shift) : Hash :=
  ((Hasher.start root perLevel).pushAll rootToLeaf).current

/-- Leaving the level just entered gives the hasher as it was before. -/
@[simp]
theorem Hasher.pop_push (hasher : Hasher) (segment : Segment) :
    (hasher.push segment).pop = some (segment, hasher) := by
  simp [pop, push]

@[simp]
theorem Hasher.path_push (hasher : Hasher) (segment : Segment) :
    (hasher.push segment).path = hasher.path ++ [segment] := rfl

@[simp]
theorem Hasher.pop_start (root : Hash) (perLevel : Shift) : (start root perLevel).pop = none := rfl

end LiveTree.Position
