import LiveTree.Position.Hasher

/-! A place has one name, whichever way its path is read. Each segment of a path enters the name
turned by its distance from the leaf. Going down gets there by turning everything read so far at
every level; going up turns each segment once, by a distance that is counted in 32 bits. The two
agree because turns add up modulo 64 and the count wraps at a multiple of 64. -/
namespace LiveTree.Position

/-- Two turns make one. -/
private theorem rotateLeft_wrapping_add (word : BitVec 64) (first second : Nat) :
    (word.rotateLeft (Shift.wrapping first).val).rotateLeft (Shift.wrapping second).val =
      word.rotateLeft (Shift.wrapping (first + second)).val := by
  have low := (Shift.wrapping first).isLt
  have high := (Shift.wrapping second).isLt
  have sum : (Shift.wrapping (first + second)).val =
      ((Shift.wrapping first).val + (Shift.wrapping second).val) % 64 := Nat.add_mod ..
  generalize Shift.wrapping first = first at *
  generalize Shift.wrapping second = second at *
  generalize Shift.wrapping _ = both at *
  simp only [hashBits] at low high
  ext i bound
  simp only [getElem_rotateLeft_shift]
  -- a bit goes over the end in the first turn, in the second, or in neither
  split <;> split <;> split <;> first
    | omega
    | (congr 1; omega)

@[simp]
theorem rotateLeft_zero (word : BitVec 64) : word.rotateLeft Shift.zero.val = word := by
  ext i bound
  simp [Shift.zero]

/-- A leaf is not turned. -/
@[simp]
theorem Shift.forDepth_zero (perLevel : Shift) : Shift.forDepth 0 perLevel = .zero := by
  simp only [forDepth, Nat.zero_mul]
  rfl

/-- Turning by some number of levels and by one level more is turning by their sum. -/
private theorem rotateLeft_forDepth_succ (word : BitVec 64) (depth : Nat) (perLevel : Shift) :
    (word.rotateLeft perLevel.val).rotateLeft (Shift.forDepth depth perLevel).val =
      word.rotateLeft (Shift.forDepth (depth + 1) perLevel).val := by
  have once : perLevel = Shift.wrapping perLevel.val :=
    Fin.ext (Nat.mod_eq_of_lt perLevel.isLt).symm
  calc (word.rotateLeft perLevel.val).rotateLeft (Shift.forDepth depth perLevel).val
    _ = (word.rotateLeft (Shift.wrapping perLevel.val).val).rotateLeft
          (Shift.wrapping (depth * perLevel.val)).val := by
        rw [← once]
        rfl
    _ = word.rotateLeft (Shift.wrapping (perLevel.val + depth * perLevel.val)).val :=
        rotateLeft_wrapping_add ..
    _ = word.rotateLeft (Shift.forDepth (depth + 1) perLevel).val := by
        rw [Shift.forDepth, Nat.succ_mul, Nat.add_comm]

/-- A depth that is counted in 32 bits turns a word as the depth itself does: what the count loses
is whole turns. -/
theorem Shift.forDepth_ofNat (depth : Nat) (perLevel : Shift) :
    Shift.forDepth (BitVec.ofNat 32 depth).toNat perLevel = .forDepth depth perLevel := by
  have lost : 2 ^ 32 = hashBits * 2 ^ 26 := by decide
  have turns : depth % 2 ^ 32 % hashBits = depth % hashBits := by
    rw [lost]
    exact Nat.mod_mul_right_mod depth hashBits (2 ^ 26)
  apply Fin.ext
  simp only [forDepth, val_wrapping, BitVec.toNat_ofNat]
  rw [Nat.mul_mod, turns, ← Nat.mul_mod]

/-- What a path, the outermost segment first, brings into the name of its place: every segment
turned by its distance from the leaf. -/
def Segment.mixture (perLevel : Shift) : List Segment → BitVec 64
  | [] => 0
  | segment :: below =>
    segment.word.rotateLeft (Shift.forDepth below.length perLevel).val ^^^ mixture perLevel below

/-- Going down a path turns the name of the place where it starts by the length of the path and
mixes the path in. -/
theorem Hasher.bits_pushAll (hasher : Hasher) (path : List Segment) :
    (hasher.pushAll path).current.bits =
      hasher.current.bits.rotateLeft (Shift.forDepth path.length hasher.perLevel).val ^^^
        Segment.mixture hasher.perLevel path := by
  induction path generalizing hasher with
  | nil =>
    simp [pushAll, Segment.mixture]
  | cons segment below ih =>
    calc ((hasher.push segment).pushAll below).current.bits
      _ = (hasher.current.bits.rotateLeft hasher.perLevel.val ^^^ segment.word).rotateLeft
            (Shift.forDepth below.length hasher.perLevel).val ^^^
              Segment.mixture hasher.perLevel below := ih (hasher.push segment)
      _ = hasher.current.bits.rotateLeft
            (Shift.forDepth (below.length + 1) hasher.perLevel).val ^^^
              Segment.mixture hasher.perLevel (segment :: below) := by
          rw [rotateLeft_xor, rotateLeft_forDepth_succ, BitVec.xor_assoc]
          rfl

/-- Going up a path gathers what the path brings in, and its length in 32 bits. -/
theorem Ascent.climb_path (perLevel : Shift) (path : List Segment) :
    path.reverse.foldl (Ascent.climb perLevel) {} =
      ⟨⟨Segment.mixture perLevel path⟩, BitVec.ofNat 32 path.length⟩ := by
  induction path with
  | nil => rfl
  | cons segment below ih =>
    rw [List.reverse_cons, List.foldl_append, ih]
    simp only [List.foldl_cons, List.foldl_nil, climb, Hash.bottomUpCompound,
      Shift.forDepth_ofNat, Segment.mixture, List.length_cons, BitVec.ofNat_add]
    rw [BitVec.xor_comm]
    rfl

/-- The name found by entering every level of a path from its root is the name found by reading
the path from the leaf upwards. -/
theorem Hasher.current_pushAll_eq_bottomUp (root : Hash) (perLevel : Shift)
    (path : List Segment) :
    ((Hasher.start root perLevel).pushAll path).current =
      Hash.bottomUp path.reverse root perLevel := by
  have down := bits_pushAll (start root perLevel) path
  have up := Ascent.climb_path perLevel path
  simp only [Hash.bottomUp, up, Hash.bottomUpCompound, Shift.forDepth_ofNat]
  generalize ((start root perLevel).pushAll path).current = current at *
  cases current with
  | mk bits =>
    congr 1
    rw [BitVec.xor_comm]
    exact down

end LiveTree.Position
