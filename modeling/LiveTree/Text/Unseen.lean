import LiveTree.Text.Combining
import LiveTree.Text.Ranges
import LiveTree.Text.Unassigned

/-! Characters that leave no mark of their own on paper: controls, format characters, separators
other than the space, characters for private use, fillers, marks that join the character before
them, and code points without a character. -/
namespace LiveTree.Text

/-- The ranges of assigned code points without a visible form that join no other character, in
increasing order: those of the general categories Cc, Cf, Co, Zl, Zp and Zs, the space apart, and
those with the property Default_Ignorable_Code_Point, by version 17.0 of the Unicode standard. -/
def invisibleRanges : List (Nat × Nat) :=
  [(0x0, 0x1F), (0x7F, 0xA0), (0xAD, 0xAD), (0x600, 0x605), (0x61C, 0x61C), (0x6DD, 0x6DD),
    (0x70F, 0x70F), (0x890, 0x891), (0x8E2, 0x8E2), (0x115F, 0x1160), (0x1680, 0x1680),
    (0x180E, 0x180E), (0x2000, 0x200F), (0x2028, 0x202F), (0x205F, 0x2064), (0x2066, 0x206F),
    (0x3000, 0x3000), (0x3164, 0x3164), (0xE000, 0xF8FF), (0xFEFF, 0xFEFF), (0xFFA0, 0xFFA0),
    (0xFFF9, 0xFFFB), (0x110BD, 0x110BD), (0x110CD, 0x110CD), (0x13430, 0x1343F),
    (0x1BCA0, 0x1BCA3), (0x1D173, 0x1D17A), (0xE0001, 0xE0001), (0xE0020, 0xE007F),
    (0xF0000, 0xFFFFD), (0x100000, 0x10FFFD)]

/-- Whether a character has no visible form of its own. -/
def isUnseen (c : Char) : Bool :=
  within invisibleRanges c || within combiningRanges c || within unassignedRanges c

end LiveTree.Text
