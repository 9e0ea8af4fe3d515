import LiveTree.Position.Hasher

/-! A walk through a tree, up and down in any order. The hasher never computes a name anew: it mixes
a segment in when it enters a level and undoes that when it leaves. Nevertheless the name that it
has is always that of its path, and its path holds the segments that were entered and not left. So
the name of a place does not depend on the subtrees that were visited on the way. -/
namespace LiveTree.Position

/-- The name of the place to which a path leads from a root, mixed level by level. -/
def Hash.along (root : Hash) (perLevel : Shift) (path : List Segment) : Hash :=
  path.foldl (fun hash segment => hash.compound segment perLevel) root

private theorem Hash.along_concat (root : Hash) (perLevel : Shift) (path : List Segment)
    (segment : Segment) :
    root.along perLevel (path ++ [segment]) =
      (root.along perLevel path).compound segment perLevel := by
  simp [along]

/-- What a walk does next: it enters the level of a segment, or leaves the innermost level. -/
inductive Stride where
  | enter (segment : Segment)
  | leave
deriving DecidableEq, Repr

/-- The path after one more stride. -/
def Stride.extend (path : List Segment) : Stride → List Segment
  | enter segment => path ++ [segment]
  | leave => path.dropLast

/-- The segments that some strides enter and do not leave, the outermost first. -/
def Stride.path (strides : List Stride) : List Segment := strides.foldl extend []

namespace Hasher

/-- The hasher after a stride. Where there is no level to leave it stays. -/
def stride (hasher : Hasher) : Stride → Hasher
  | .enter segment => hasher.push segment
  | .leave => (hasher.pop.map Prod.snd).getD hasher

/-- The hasher after several strides. -/
def walk (hasher : Hasher) (strides : List Stride) : Hasher := strides.foldl stride hasher

variable {hasher left : Hasher} {root : Hash} {perLevel : Shift} {path : List Segment}
  {segment : Segment}

/-- A hasher at the end of a path below a root. -/
structure StandsAt (hasher : Hasher) (root : Hash) (perLevel : Shift) (path : List Segment) :
    Prop where
  root_eq : hasher.root = root
  perLevel_eq : hasher.perLevel = perLevel
  path_eq : hasher.path = path
  current_eq : hasher.current = root.along perLevel path

namespace StandsAt

private theorem start (root : Hash) (perLevel : Shift) :
    (start root perLevel).StandsAt root perLevel [] :=
  ⟨rfl, rfl, rfl, rfl⟩

/-- There is one hasher at the end of a path. -/
private theorem unique {other : Hasher} (stands : hasher.StandsAt root perLevel path)
    (also : other.StandsAt root perLevel path) : hasher = other := by
  have only : ∀ {hasher : Hasher}, hasher.StandsAt root perLevel path →
      hasher = ⟨perLevel, root, root.along perLevel path, path⟩ := by
    rintro ⟨_, _, _, _⟩ ⟨root_eq, perLevel_eq, path_eq, current_eq⟩
    exact (Hasher.mk.injEq ..).mpr ⟨perLevel_eq, root_eq, current_eq, path_eq⟩
  rw [only stands, only also]

private theorem push (stands : hasher.StandsAt root perLevel path) (segment : Segment) :
    (hasher.push segment).StandsAt root perLevel (path ++ [segment]) where
  root_eq := stands.root_eq
  perLevel_eq := stands.perLevel_eq
  path_eq := by rw [path_push, stands.path_eq]
  current_eq := by
    rw [Hash.along_concat, ← stands.current_eq, ← stands.perLevel_eq]
    rfl

/-- The innermost level is left for the one above it. -/
private theorem pop (stands : hasher.StandsAt root perLevel (path ++ [segment])) :
    ∃ left, hasher.pop = some (segment, left) ∧ left.StandsAt root perLevel path := by
  have above : (⟨perLevel, root, root.along perLevel path, path⟩ : Hasher).StandsAt root perLevel
      path := ⟨rfl, rfl, rfl, rfl⟩
  rw [stands.unique (above.push segment), pop_push]
  exact ⟨_, rfl, above⟩

/-- At the root there is none to leave. -/
private theorem pop_nil (stands : hasher.StandsAt root perLevel []) : hasher.pop = none := by
  rw [stands.unique (.start root perLevel), pop_start]

private theorem stride (stands : hasher.StandsAt root perLevel path) (next : Stride) :
    (hasher.stride next).StandsAt root perLevel (next.extend path) := by
  cases next with
  | enter segment => exact stands.push segment
  | leave =>
    rcases path.eq_nil_or_concat with rfl | ⟨above, segment, rfl⟩
    · simpa [Hasher.stride, stands.pop_nil, Stride.extend] using stands
    · rw [List.concat_eq_append] at stands ⊢
      obtain ⟨left, popped, higher⟩ := stands.pop
      simpa [Hasher.stride, popped, Stride.extend] using higher

private theorem walk (stands : hasher.StandsAt root perLevel path) (strides : List Stride) :
    (hasher.walk strides).StandsAt root perLevel (strides.foldl Stride.extend path) := by
  induction strides generalizing hasher path with
  | nil => exact stands
  | cons next strides ih => exact ih (stands.stride next)

end StandsAt

/-- What a hasher knows at the end of a path. -/
structure KnowsPath (hasher : Hasher) (root : Hash) (perLevel : Shift) (path : List Segment) : Prop
    extends hasher.StandsAt root perLevel path where
  /-- To leave a level tells its segment and leads back to the place before it was entered. -/
  leaves : ∀ above segment, path = above ++ [segment] →
    ∃ left, hasher.pop = some (segment, left) ∧ left.StandsAt root perLevel above
  /-- At the root nothing is told and nothing changes. -/
  stays : path = [] → hasher.pop = none ∧ hasher.stride .leave = hasher
  /-- Every other way to the same path leads to the same hasher, and so to the same name. -/
  anyWay : ∀ others, ((start root perLevel).walk others).path = hasher.path →
    (start root perLevel).walk others = hasher

/-- Whatever levels a walk enters and leaves, and however often it tries to leave the root, its
hasher has the path that was entered and not left, and the name to which this path leads. -/
theorem walk_knows_path (root : Hash) (perLevel : Shift) (strides : List Stride) :
    ((start root perLevel).walk strides).KnowsPath root perLevel (Stride.path strides) := by
  have stands := (StandsAt.start root perLevel).walk strides
  refine ⟨stands, ?leaves, ?stays, ?anyWay⟩
  case leaves =>
    intro above segment split
    rw [Stride.path] at split
    rw [split] at stands
    exact stands.pop
  case stays =>
    intro none
    rw [Stride.path] at none
    rw [none] at stands
    have nothing := stands.pop_nil
    exact ⟨nothing, by simp [Hasher.stride, nothing]⟩
  case anyWay =>
    intro others same
    have also := (StandsAt.start root perLevel).walk others
    rw [also.path_eq, stands.path_eq] at same
    rw [same] at also
    exact also.unique stands

end Hasher

end LiveTree.Position
