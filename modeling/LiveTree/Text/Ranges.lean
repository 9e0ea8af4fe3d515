/-! Sets of characters that are given by ranges of code points. -/
namespace LiveTree.Text

/-- Whether a character lies within one of several ranges, their ends included. -/
def within (ranges : List (Nat × Nat)) (c : Char) : Bool :=
  ranges.any fun range => range.1 ≤ c.toNat && c.toNat ≤ range.2

theorem within_eq_true_iff {ranges : List (Nat × Nat)} {c : Char} :
    within ranges c = true ↔ ∃ range ∈ ranges, range.1 ≤ c.toNat ∧ c.toNat ≤ range.2 := by
  simp [within]

end LiveTree.Text
