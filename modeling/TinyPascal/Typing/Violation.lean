import TinyPascal.Syntax.Tree

/-!
# Violations

What the check of a program can object to. All violations of a program are collected.
-/
namespace TinyPascal

inductive Violation where
  | alreadyDeclared (name : String)
  | notDeclared (name : String)
  | arithmeticOperands (op : ArithmeticOp) (left right : Ty)
  | relationalOperands (op : RelationalOp) (left right : Ty)
  | unaryOperand (found : Ty)
  | conditionNotInteger (found : Ty)
  | incompatibleTypes (name : String) (expected found : Ty)
deriving DecidableEq, Repr

structure SemanticError where
  violation : Violation
  position : Position
deriving DecidableEq, Repr

namespace Violation

def text : Violation → String
  | alreadyDeclared name => "variable '" ++ name ++ "' already declared"
  | notDeclared name => "variable '" ++ name ++ "' not declared"
  | arithmeticOperands op left right =>
    "arithmetic operators require integer operands ('" ++ op.mark.spelling ++ "' applied to " ++
      left.name ++ " and " ++ right.name ++ ")"
  | relationalOperands op left right =>
    "relational operators require operands of the same type ('" ++ op.mark.spelling ++
      "' applied to " ++ left.name ++ " and " ++ right.name ++ ")"
  | unaryOperand found => "unary '-' requires an integer operand, found " ++ found.name
  | conditionNotInteger found => "condition must be integer, found " ++ found.name
  | incompatibleTypes name expected found =>
    "incompatible types: cannot assign " ++ found.name ++ " to '" ++ name ++ "' of type " ++
      expected.name

end Violation

def SemanticError.message (e : SemanticError) : String :=
  "Semantic error at " ++ e.position.text ++ ": " ++ e.violation.text

end TinyPascal
