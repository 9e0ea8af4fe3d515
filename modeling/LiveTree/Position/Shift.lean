import LiveTree.InvalidArgument

/-! Rotation amounts. A shift says by how many bits a 64-bit hash turns; it is below 64 by its
type, so no operation on hashes has to check it again. -/
namespace LiveTree.Position

/-- The number of bits of a hash. -/
def hashBits : Nat := 64

/-- A rotation of a hash by less than a full turn. -/
abbrev Shift := Fin hashBits

/-- No rotation. -/
def Shift.zero : Shift := ⟨0, by decide⟩

/-- The rotation from one level of a tree to the next, unless another is chosen. -/
def Shift.defaultLevel : Shift := ⟨3, by decide⟩

/-- The shift by a number of bits, or a refusal when that is a full turn or more. -/
def Shift.ofBits (bits : Nat) : Except InvalidArgument Shift :=
  if small : bits < hashBits then .ok ⟨bits, small⟩
  else .error ⟨"shift", bits, "0 <= shift < 64"⟩

/-- The shift by a number of bits, full turns left out. -/
def Shift.wrapping (bits : Nat) : Shift := ⟨bits % hashBits, Nat.mod_lt _ (by decide)⟩

/-- The shift of a level at some depth when each level turns the hash by `perLevel`. -/
def Shift.forDepth (depth : Nat) (perLevel : Shift) : Shift := wrapping (depth * perLevel.val)

/-- The text of a shift. -/
def Shift.describe (shift : Shift) : String := Text.tagged "Shift" [toString shift.val]

theorem Shift.ofBits_eq_ok_iff {bits : Nat} {shift : Shift} :
    ofBits bits = .ok shift ↔ bits = shift.val := by
  unfold ofBits
  split
  · constructor
    · intro same
      cases same
      rfl
    · rintro rfl
      rfl
  · next large =>
    constructor
    · intro absurdity
      cases absurdity
    · rintro rfl
      exact absurd shift.isLt large

@[simp]
theorem Shift.val_wrapping (bits : Nat) : (wrapping bits).val = bits % hashBits := rfl

end LiveTree.Position
