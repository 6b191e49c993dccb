import Metering.Text.Blank

/-!
# Printable characters

A character is printable unless it is a control or format character, a separator other than the
space, of private use, or no character at all. The others are quoted by their code point.
-/

namespace Metering.Text

/-- First and last code point of each run of characters that are not printable. -/
def hiddenRanges : List (Nat × Nat) :=
  [(0x00, 0x1F), (0x7F, 0xA0), (0xAD, 0xAD), (0x600, 0x605), (0x61C, 0x61C), (0x6DD, 0x6DD),
   (0x70F, 0x70F), (0x890, 0x891), (0x8E2, 0x8E2), (0x1680, 0x1680), (0x180E, 0x180E),
   (0x2000, 0x200F), (0x2028, 0x202F), (0x205F, 0x206F), (0x3000, 0x3000), (0xD800, 0xF8FF),
   (0xFDD0, 0xFDEF), (0xFEFF, 0xFEFF), (0xFFF0, 0xFFFB), (0x110BD, 0x110BD), (0x110CD, 0x110CD),
   (0x13430, 0x13438), (0x1BCA0, 0x1BCA3), (0x1D173, 0x1D17A), (0xE0000, 0xE00FF),
   (0xE01F0, 0x10FFFF)]

/-- The last two code points of every plane are no characters. -/
def isPlaneEnd (n : Nat) : Bool := n % 0x10000 == 0xFFFE || n % 0x10000 == 0xFFFF

def isPrintable (c : Char) : Bool := !(inRanges hiddenRanges c.toNat || isPlaneEnd c.toNat)

end Metering.Text
