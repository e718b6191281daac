import TinyPascal.Text.CodePoints

/-!
# Blanks

The characters with the Unicode property White_Space, and what is left of a text without the blanks
at its two ends.
-/
namespace TinyPascal.Text

set_option maxRecDepth 4000 in
/-- The code points with the property White_Space. -/
def blankRanges : List (Nat × Nat) :=
  [(0x9, 0xd), (0x20, 0x20), (0x85, 0x85), (0xa0, 0xa0), (0x1680, 0x1680), (0x2000, 0x200a),
    (0x2028, 0x2029), (0x202f, 0x202f), (0x205f, 0x205f), (0x3000, 0x3000)]

/-- Whether `c` separates words. -/
def isBlank (c : Char) : Bool :=
  inRanges blankRanges c.toNat

def trim (s : String) : String :=
  .ofList ((s.toList.dropWhile isBlank).reverse.dropWhile isBlank).reverse

end TinyPascal.Text
