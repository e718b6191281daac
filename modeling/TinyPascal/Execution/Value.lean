import TinyPascal.Syntax.Tree

/-!
# Values

A value is an integer or a string.
-/
namespace TinyPascal

inductive Value where
  | int (value : Integer)
  | str (value : String)
deriving DecidableEq, Repr

namespace Value

/-- One for true and zero for false. -/
def ofBool (b : Bool) : Value :=
  int (if b then 1 else 0)

def type : Value → Ty
  | int _ => .integer
  | str _ => .string

/-- Whether a value counts as true: an integer other than zero, or a string that is not empty. -/
def isTruthy : Value → Bool
  | int n => n ≠ 0
  | str s => !s.isEmpty

def text : Value → String
  | int n => n.text
  | str s => s

end Value

end TinyPascal
