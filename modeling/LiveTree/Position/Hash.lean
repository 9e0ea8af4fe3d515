import LiveTree.Position.Rotation

/-! Position hashes. A hash of 64 bits names a place in a tree by the segments of its path. Going
down one level turns the hash and mixes the segment in by exclusive or; both steps can be undone
exactly. The same name can be computed from the leaf upwards, where each segment is turned by its
own distance from the leaf. -/
namespace LiveTree.Position

/-- The name of a place in a tree. -/
structure Hash where
  bits : BitVec 64
deriving DecidableEq, Repr

/-- One step of a path: a key of 32 bits, or the hash of a nested tree. -/
inductive Segment where
  | key (value : BitVec 32)
  | nested (hash : Hash)
deriving DecidableEq, Repr

/-- The 64 bits that a segment contributes. A key keeps its sign. -/
def Segment.word : Segment → BitVec 64
  | key value => value.signExtend 64
  | nested hash => hash.bits

namespace Hash

/-- The name of the place with the empty path below no root. -/
def empty : Hash := ⟨0⟩

instance : Inhabited Hash := ⟨empty⟩

def isEmpty (hash : Hash) : Bool := hash.bits == 0

def ofNat (n : Nat) : Hash := ⟨BitVec.ofNat 64 n⟩

/-- The hash one level further down. -/
def compound (hash : Hash) (segment : Segment) (shift : Shift) : Hash :=
  ⟨hash.bits.rotateLeft shift.val ^^^ segment.word⟩

/-- The hash one level further up, given the segment of the level that is left. -/
def uncompound (hash : Hash) (segment : Segment) (shift : Shift) : Hash :=
  ⟨(hash.bits ^^^ segment.word).rotateRight shift.val⟩

/-- A hash of the lower part of a path with the segment above that part mixed in. -/
def bottomUpCompound (hash : Hash) (segment : Segment) (shift : Shift) : Hash :=
  ⟨hash.bits ^^^ segment.word.rotateLeft shift.val⟩

/-- Leaving a level undoes entering it. -/
@[simp]
theorem uncompound_compound (hash : Hash) (segment : Segment) (shift : Shift) :
    (hash.compound segment shift).uncompound segment shift = hash := by
  simp only [compound, uncompound, BitVec.xor_assoc, BitVec.xor_self, BitVec.xor_zero,
    rotateRight_rotateLeft]

/-- Entering a level undoes leaving it. -/
@[simp]
theorem compound_uncompound (hash : Hash) (segment : Segment) (shift : Shift) :
    (hash.uncompound segment shift).compound segment shift = hash := by
  simp only [compound, uncompound, BitVec.xor_assoc, BitVec.xor_self, BitVec.xor_zero,
    rotateLeft_rotateRight]

/-- A segment that is mixed in twice from below leaves no trace. -/
@[simp]
theorem bottomUpCompound_bottomUpCompound (hash : Hash) (segment : Segment) (shift : Shift) :
    (hash.bottomUpCompound segment shift).bottomUpCompound segment shift = hash := by
  simp only [bottomUpCompound, BitVec.xor_assoc, BitVec.xor_self, BitVec.xor_zero]

/-- The sixteen hexadecimal digits of a hash. -/
def text (hash : Hash) : String := String.ofList (Text.hexDigits 16 hash.bits.toNat)

/-- The full text of a hash. -/
def describe (hash : Hash) : String := Text.tagged "PositionHash" ["0x" ++ hash.text]

/-- Hashes are ordered as unsigned numbers. -/
def order (left right : Hash) : Ordering := compare left.bits.toNat right.bits.toNat

end Hash

/-- The full text of a segment. -/
def Segment.describe : Segment → String
  | key value => Text.tagged "Key" [toString value.toInt]
  | nested hash => Text.tagged "Hash" [hash.describe]

end LiveTree.Position
