import Std.Data.TreeMap
import TinyPascal.Text.Decimal

/-!
# Positions in a source text

A position is a line and a column, both counted from one. A line feed starts a new line, and every
other character, whatever its width, takes one column. Positions are ordered by line, then column.
-/
namespace TinyPascal

structure Position where
  line : Nat
  column : Nat
deriving DecidableEq, Repr, Inhabited

namespace Position

/-- Lines are compared first, columns second. -/
instance : Ord Position :=
  ⟨compareLex (compareOn line) (compareOn column)⟩

instance : Std.TransOrd Position :=
  inferInstanceAs (Std.TransCmp (compareLex (compareOn line) (compareOn column)))

instance : Std.LawfulEqOrd Position where
  eq_of_compare {p q} h := by
    obtain ⟨hline, hcolumn⟩ := Ordering.then_eq_eq.1 h
    rw [compareOn, Std.LawfulEqOrd.compare_eq_iff_eq] at hline hcolumn
    cases p
    cases q
    simp_all

def start : Position := ⟨1, 1⟩

/-- The place of the character that follows `c` when `c` stands at `p`. -/
def advance (p : Position) (c : Char) : Position :=
  if c = '\n' then ⟨p.line + 1, 1⟩ else ⟨p.line, p.column + 1⟩

/-- The place of what follows `text` when `text` starts at `p`. -/
def advanceBy (p : Position) (text : List Char) : Position :=
  text.foldl advance p

def text (p : Position) : String :=
  "line " ++ Text.decimal p.line ++ ", column " ++ Text.decimal p.column

@[simp] theorem advanceBy_nil (p : Position) : p.advanceBy [] = p := rfl

@[simp] theorem advanceBy_cons (p : Position) (c : Char) (text : List Char) :
    p.advanceBy (c :: text) = (p.advance c).advanceBy text := rfl

theorem advanceBy_append (p : Position) (left right : List Char) :
    p.advanceBy (left ++ right) = (p.advanceBy left).advanceBy right :=
  List.foldl_append

end Position

end TinyPascal
