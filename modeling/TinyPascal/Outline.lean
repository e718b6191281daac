/-!
# Outlines

An outline is a tree of labels, drawn with box lines: each child hangs on a connector below its
parent, and a rule leads down past a child to its next sibling.
-/
namespace TinyPascal

inductive Outline where
  | node (label : String) (children : List Outline)
deriving Repr

namespace Outline

def leaf (label : String) : Outline := node label []

/-- Puts `first` before the first line and `further` before each other line. -/
def hang (first further : String) : List String → List String
  | [] => []
  | line :: lines => (first ++ line) :: lines.map (further ++ ·)

mutual

def lines : Outline → List String
  | node label children => label :: branches children

/-- The lines below a label. The last child has the corner, the others have the tee. -/
def branches : List Outline → List String
  | [] => []
  | [child] => hang "└── " "    " child.lines
  | child :: rest => hang "├── " "│   " child.lines ++ branches rest

end

/-- The drawing of an outline, each line ended by a line feed. -/
def render (outline : Outline) : String :=
  String.join (outline.lines.map (· ++ "\n"))

end Outline

end TinyPascal
