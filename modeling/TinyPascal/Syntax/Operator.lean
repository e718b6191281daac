import TinyPascal.Token.Kind

/-!
# Operators

Binary operators are arithmetic or relational. Each has a mark that spells it.
-/
namespace TinyPascal

/-- The operators from two integers to an integer. -/
inductive ArithmeticOp where
  | add | sub | mul | div
deriving DecidableEq, Repr

/-- The operators that compare two values of one type. -/
inductive RelationalOp where
  | eq | ne | lt | le | gt | ge
deriving DecidableEq, Repr

inductive BinaryOp where
  | arithmetic (op : ArithmeticOp)
  | relational (op : RelationalOp)
deriving DecidableEq, Repr

namespace ArithmeticOp

def mark : ArithmeticOp → Mark
  | add => .plus
  | sub => .minus
  | mul => .star
  | div => .slash

def isAdditive : ArithmeticOp → Bool
  | add | sub => true
  | mul | div => false

end ArithmeticOp

namespace RelationalOp

def mark : RelationalOp → Mark
  | eq => .equal
  | ne => .notEqual
  | lt => .less
  | le => .lessEqual
  | gt => .greater
  | ge => .greaterEqual

/-- Whether a relation holds between two values that compare as `o`. -/
def holds : RelationalOp → Ordering → Bool
  | eq, o => o.isEq
  | ne, o => o.isNe
  | lt, o => o.isLT
  | le, o => o.isLE
  | gt, o => o.isGT
  | ge, o => o.isGE

end RelationalOp

namespace BinaryOp

def mark : BinaryOp → Mark
  | arithmetic op => op.mark
  | relational op => op.mark

def symbol (op : BinaryOp) : String :=
  op.mark.spelling

def ofMark? : Mark → Option BinaryOp
  | .plus => some (arithmetic .add)
  | .minus => some (arithmetic .sub)
  | .star => some (arithmetic .mul)
  | .slash => some (arithmetic .div)
  | .equal => some (relational .eq)
  | .notEqual => some (relational .ne)
  | .less => some (relational .lt)
  | .lessEqual => some (relational .le)
  | .greater => some (relational .gt)
  | .greaterEqual => some (relational .ge)
  | _ => none

def ofKind? : TokenKind → Option BinaryOp
  | .mark m => ofMark? m
  | _ => none

def isArithmetic : BinaryOp → Bool
  | arithmetic _ => true
  | relational _ => false

def isRelational : BinaryOp → Bool
  | arithmetic _ => false
  | relational _ => true

def isAdditive : BinaryOp → Bool
  | arithmetic op => op.isAdditive
  | relational _ => false

def isMultiplicative : BinaryOp → Bool
  | arithmetic op => !op.isAdditive
  | relational _ => false

def holds? : BinaryOp → Ordering → Option Bool
  | arithmetic _, _ => none
  | relational op, o => some (op.holds o)

theorem ofMark?_mark (op : BinaryOp) : ofMark? op.mark = some op := by
  rcases op with op | op <;> cases op <;> rfl

theorem mark_of_ofMark? {m : Mark} {op : BinaryOp} (h : ofMark? m = some op) : op.mark = m := by
  cases m <;> simp only [ofMark?, Option.some.injEq, reduceCtorEq] at h <;> subst h <;> rfl

end BinaryOp

end TinyPascal
