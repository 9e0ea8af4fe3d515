import LiveTree.Text.Ranges

/-! Blank characters and the removal of blanks around a text. A character is blank when it
carries the Unicode property White_Space; control characters such as NUL and the zero-width
space do not carry it. -/
namespace LiveTree.Text

/-- The ranges of code points that carry the property White_Space, in increasing order. -/
def blankRanges : List (Nat × Nat) :=
  [(0x09, 0x0D), (0x20, 0x20), (0x85, 0x85), (0xA0, 0xA0), (0x1680, 0x1680), (0x2000, 0x200A),
    (0x2028, 0x2029), (0x202F, 0x202F), (0x205F, 0x205F), (0x3000, 0x3000)]

/-- Whether a character carries the property White_Space. -/
def isBlank (c : Char) : Bool := within blankRanges c

/-- A text without the blanks before its first and after its last other character. -/
def trimBlanks (text : List Char) : List Char :=
  ((text.dropWhile isBlank).reverse.dropWhile isBlank).reverse

/-- Every character that the core library calls whitespace is blank. -/
theorem isBlank_of_isWhitespace {c : Char} (space : c.isWhitespace = true) : isBlank c = true := by
  simp only [Char.isWhitespace, Bool.or_eq_true, decide_eq_true_eq] at space
  rcases space with ((rfl | rfl) | rfl) | rfl <;> decide

@[simp]
theorem trimBlanks_nil : trimBlanks [] = [] := rfl

end LiveTree.Text
