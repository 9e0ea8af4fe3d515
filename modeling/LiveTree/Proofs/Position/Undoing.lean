import Mathlib.Data.List.Perm.Basic
import LiveTree.Position.Hash

/-! Chains of levels, each with a segment and a shift of its own. Entering all levels of a chain is
undone by leaving them in the opposite order, and the other way round, so every chain maps the names
one to one onto each other. A chain that is mixed in from below does not even depend on the order of
its levels, and mixing it in again takes it out. -/
namespace LiveTree.Position

/-- A level of a path, with the segment that it mixes in and the shift by which it turns. -/
structure Level where
  segment : Segment
  shift : Shift
deriving DecidableEq, Repr

namespace Hash

/-- The name after entering a level. -/
def enter (hash : Hash) (level : Level) : Hash := hash.compound level.segment level.shift

/-- The name after leaving a level. -/
def leave (hash : Hash) (level : Level) : Hash := hash.uncompound level.segment level.shift

/-- The name after a level was mixed in from below. -/
def blend (hash : Hash) (level : Level) : Hash := hash.bottomUpCompound level.segment level.shift

def enterAll (hash : Hash) (levels : List Level) : Hash := levels.foldl enter hash

def leaveAll (hash : Hash) (levels : List Level) : Hash := levels.foldl leave hash

def blendAll (hash : Hash) (levels : List Level) : Hash := levels.foldl blend hash

/-- What is undone level by level is undone by taking the levels in the opposite order. -/
private theorem foldl_reverse_of_undoes {forth back : Hash → Level → Hash}
    (undoes : ∀ hash level, back (forth hash level) level = hash) (hash : Hash)
    (levels : List Level) : levels.reverse.foldl back (levels.foldl forth hash) = hash := by
  induction levels generalizing hash with
  | nil => rfl
  | cons level levels ih =>
    rw [List.foldl_cons, List.reverse_cons, List.foldl_append, ih]
    exact undoes hash level

private theorem leaveAll_enterAll (hash : Hash) (levels : List Level) :
    (hash.enterAll levels).leaveAll levels.reverse = hash :=
  foldl_reverse_of_undoes (fun hash level => hash.uncompound_compound level.segment level.shift)
    hash levels

private theorem enterAll_leaveAll (hash : Hash) (levels : List Level) :
    (hash.leaveAll levels).enterAll levels.reverse = hash :=
  foldl_reverse_of_undoes (fun hash level => hash.compound_uncompound level.segment level.shift)
    hash levels

/-- It does not matter which of two levels is mixed in first. -/
private theorem blend_comm (hash : Hash) (first second : Level) :
    (hash.blend first).blend second = (hash.blend second).blend first := by
  simp only [blend, bottomUpCompound, BitVec.xor_assoc]
  rw [BitVec.xor_comm (first.segment.word.rotateLeft first.shift.val)]

private theorem blendAll_perm {levels others : List Level} (same : others.Perm levels)
    (hash : Hash) : hash.blendAll others = hash.blendAll levels :=
  same.foldl_eq' (fun first _ second _ hash => hash.blend_comm first second) hash

private theorem blendAll_blendAll {levels others : List Level} (same : others.Perm levels)
    (hash : Hash) : (hash.blendAll levels).blendAll others = hash := by
  rw [blendAll_perm (same.trans levels.reverse_perm.symm)]
  exact foldl_reverse_of_undoes
    (fun hash level => hash.bottomUpCompound_bottomUpCompound level.segment level.shift) hash levels

/-- What can be undone on both sides maps the names one to one onto each other. -/
private theorem bijective_of_undoes {forth back : Hash → Hash}
    (undoes : ∀ hash, back (forth hash) = hash) (redoes : ∀ hash, forth (back hash) = hash) :
    Function.Bijective forth :=
  Function.bijective_iff_has_inverse.mpr ⟨back, undoes, redoes⟩

end Hash

/-- What it means that the chains over some levels can be undone. -/
structure Level.Undone (levels : List Level) : Prop where
  /-- To leave the levels that were entered, the innermost first, leads back, -/
  left : ∀ hash : Hash, (hash.enterAll levels).leaveAll levels.reverse = hash
  /-- and so does entering the levels that were left. -/
  entered : ∀ hash : Hash, (hash.leaveAll levels).enterAll levels.reverse = hash
  /-- No two names become one, and no name is out of reach. -/
  entering : Function.Bijective fun hash : Hash => hash.enterAll levels
  leaving : Function.Bijective fun hash : Hash => hash.leaveAll levels
  blending : Function.Bijective fun hash : Hash => hash.blendAll levels
  /-- Levels that are mixed in from below again, in any order, leave no trace, -/
  blendedTwice : ∀ others : List Level, others.Perm levels → ∀ hash : Hash,
    (hash.blendAll levels).blendAll others = hash
  /-- and the order does not matter in the first place. -/
  anyOrder : ∀ others : List Level, others.Perm levels → ∀ hash : Hash,
    hash.blendAll others = hash.blendAll levels

/-- Every chain can be undone, whatever its segments and shifts are. -/
theorem Level.chains_undone (levels : List Level) : Undone levels where
  left hash := hash.leaveAll_enterAll levels
  entered hash := hash.enterAll_leaveAll levels
  entering := Hash.bijective_of_undoes (fun hash => hash.leaveAll_enterAll levels) fun hash => by
    simpa using hash.enterAll_leaveAll levels.reverse
  leaving := Hash.bijective_of_undoes (fun hash => hash.enterAll_leaveAll levels) fun hash => by
    simpa using hash.leaveAll_enterAll levels.reverse
  blending := Hash.bijective_of_undoes (fun hash => hash.blendAll_blendAll (.refl levels))
    fun hash => hash.blendAll_blendAll (.refl levels)
  blendedTwice _ same hash := hash.blendAll_blendAll same
  anyOrder _ same hash := hash.blendAll_perm same

/-- Without a turn, a negative key is mixed into all 64 bits and taken out again. -/
example : Hash.empty.enterAll [⟨.key (-1), .zero⟩, ⟨.nested ⟨7⟩, ⟨63, by decide⟩⟩] =
      ⟨0xFFFFFFFFFFFFFFF8⟩ ∧
    (⟨0xFFFFFFFFFFFFFFF8⟩ : Hash).leaveAll [⟨.nested ⟨7⟩, ⟨63, by decide⟩⟩, ⟨.key (-1), .zero⟩] =
      .empty := by
  decide

end LiveTree.Position
