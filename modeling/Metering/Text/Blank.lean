/-!
# White space

`isBlank` is the white space of the settings: the characters of bidirectional class WS, B or S or
of category Zs. It is wider than the white space of `Char.isWhitespace` and holds neither the
zero-width space nor the byte order mark.
-/

namespace Metering.Text

/-- First and last code point of each run of white space. -/
def blankRanges : List (Nat × Nat) :=
  [(0x09, 0x0D), (0x1C, 0x20), (0x85, 0x85), (0xA0, 0xA0), (0x1680, 0x1680), (0x2000, 0x200A),
   (0x2028, 0x2029), (0x202F, 0x202F), (0x205F, 0x205F), (0x3000, 0x3000)]

def inRanges (ranges : List (Nat × Nat)) (n : Nat) : Bool :=
  ranges.any fun r => decide (r.1 ≤ n) && decide (n ≤ r.2)

def isBlank (c : Char) : Bool := inRanges blankRanges c.toNat

/-- Takes the white space off both ends. -/
def trimList (s : List Char) : List Char :=
  ((s.dropWhile isBlank).reverse.dropWhile isBlank).reverse

def trim (s : String) : String := String.ofList (trimList s.toList)

end Metering.Text
