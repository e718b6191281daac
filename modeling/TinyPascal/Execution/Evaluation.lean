import TinyPascal.Execution.Store

/-!
# Evaluation of expressions

Operands are evaluated from left to right, and the first fault ends the evaluation. Arithmetic is
exact or overflows. Strings are compared by code points.
-/
namespace TinyPascal

def orOverflow {α : Type} : Option α → Except RuntimeFault α
  | some a => .ok a
  | none => .error .overflow

def ArithmeticOp.apply : ArithmeticOp → Integer → Integer → Except RuntimeFault Integer
  | add, a, b => orOverflow (a.add? b)
  | sub, a, b => orOverflow (a.sub? b)
  | mul, a, b => orOverflow (a.mul? b)
  | div, a, b => if b = 0 then .error .divisionByZero else orOverflow (a.floorDiv? b)

namespace Value

def toInteger : Value → Except RuntimeFault Integer
  | int n => .ok n
  | str _ => .error (.typeMismatch (.notAnInteger .string))

def negate : Value → Except RuntimeFault Value
  | int n => (orOverflow (Integer.neg? n)).map int
  | str _ => .error (.typeMismatch (.notNegatable .string))

def compare? : Value → Value → Option Ordering
  | int a, int b => some (compare a b)
  | str a, str b => some (compare a b)
  | _, _ => none

end Value

namespace BinaryOp

def calculate (op : BinaryOp) (a b : Integer) : Except RuntimeFault Integer :=
  match op with
  | arithmetic op => op.apply a b
  | relational _ => .error (.typeMismatch (.notArithmetic op))

/-- The result of a relational operator. Values of different types cannot be compared. -/
def relate (op : BinaryOp) (left right : Value) : Except RuntimeFault Value :=
  match left.compare? right with
  | none => .error (.typeMismatch (.incomparable left.type right.type))
  | some o =>
    match op.holds? o with
    | some b => .ok (.ofBool b)
    | none => .error (.typeMismatch (.notRelational op))

def apply (op : BinaryOp) (left right : Value) : Except RuntimeFault Value :=
  match op with
  | arithmetic op => do
    let a ← left.toInteger
    let b ← right.toInteger
    return .int (← op.apply a b)
  | relational _ => op.relate left right

end BinaryOp

/-- A result, or its fault at the place `p`. -/
def RuntimeError.locate {α : Type} (p : Position) : Except RuntimeFault α → Except RuntimeError α
  | .ok a => .ok a
  | .error fault => .error ⟨fault, p⟩

def Expr.eval (store : Store) : Expr → Except RuntimeError Value
  | int value _ => .ok (.int value)
  | str value _ => .ok (.str value)
  | var name p => RuntimeError.locate p (store.fetch name)
  | neg operand p => do
    let value ← operand.eval store
    RuntimeError.locate p value.negate
  | binary op left right p => do
    let l ← left.eval store
    let r ← right.eval store
    RuntimeError.locate p (op.apply l r)

end TinyPascal
