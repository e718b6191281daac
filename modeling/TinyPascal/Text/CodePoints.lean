/-!
# Tables of code points

A class of characters is a list of closed ranges of code points. The ranges of a table stand in
increasing order, so a search ends at the first range that starts beyond the code point.
-/
namespace TinyPascal.Text

/-- Whether a table of closed ranges in increasing order holds the code point `n`. -/
def inRanges : List (Nat × Nat) → Nat → Bool
  | [], _ => false
  | (first, last) :: rest, n => decide (first ≤ n) && (decide (n ≤ last) || inRanges rest n)

end TinyPascal.Text
