import LiveTree.Position.Shift

/-! Rotations of 64-bit words. A rotation to the left and one to the right by the same shift undo
each other, for every shift including none, and a rotation distributes over exclusive or. -/
namespace LiveTree.Position

/-- A bit of a word turned to the left. -/
theorem getElem_rotateLeft_shift (word : BitVec 64) (shift : Shift) {i : Nat} (bound : i < 64) :
    (word.rotateLeft shift.val)[i] =
      if low : i < shift.val then word[64 - shift.val + i] else word[i - shift.val] := by
  have small : shift.val < 64 := shift.isLt
  simp only [BitVec.getElem_rotateLeft, Nat.mod_eq_of_lt small]

/-- A bit of a word turned to the right. -/
theorem getElem_rotateRight_shift (word : BitVec 64) (shift : Shift) {i : Nat} (bound : i < 64) :
    (word.rotateRight shift.val)[i] =
      if low : i < 64 - shift.val then word[shift.val + i] else word[i - (64 - shift.val)] := by
  have small : shift.val < 64 := shift.isLt
  simp only [BitVec.getElem_rotateRight, Nat.mod_eq_of_lt small]

@[simp]
theorem rotateRight_rotateLeft (word : BitVec 64) (shift : Shift) :
    (word.rotateLeft shift.val).rotateRight shift.val = word := by
  ext i bound
  rw [getElem_rotateRight_shift]
  split
  · rw [getElem_rotateLeft_shift, dif_neg (by omega)]
    congr 1
    omega
  · rw [getElem_rotateLeft_shift, dif_pos (by omega)]
    congr 1
    omega

@[simp]
theorem rotateLeft_rotateRight (word : BitVec 64) (shift : Shift) :
    (word.rotateRight shift.val).rotateLeft shift.val = word := by
  ext i bound
  rw [getElem_rotateLeft_shift]
  split
  · rw [getElem_rotateRight_shift, dif_neg (by omega)]
    congr 1
    omega
  · rw [getElem_rotateRight_shift, dif_pos (by omega)]
    congr 1
    omega

theorem rotateLeft_xor (left right : BitVec 64) (shift : Shift) :
    (left ^^^ right).rotateLeft shift.val =
      left.rotateLeft shift.val ^^^ right.rotateLeft shift.val := by
  ext i bound
  simp only [BitVec.getElem_xor, getElem_rotateLeft_shift]
  split <;> simp

end LiveTree.Position
