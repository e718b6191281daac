import TinyPascal.Typing.Symbols

/-!
# Types of expressions

An expression has a type if all its parts have one and fit together. Otherwise its violations say
why: a node is charged only if its operands are typed, so one mistake is reported once.
-/
namespace TinyPascal

/-- What an operator objects to in operands of the given types. -/
def BinaryOp.violation? : BinaryOp → Ty → Ty → Option Violation
  | arithmetic op, left, right =>
    if left = .integer ∧ right = .integer then none else some (.arithmeticOperands op left right)
  | relational op, left, right =>
    if left = right then none else some (.relationalOperands op left right)

def SymbolTable.undeclared (symbols : SymbolTable) (name : String) (position : Position) :
    List SemanticError :=
  if symbols.contains name then [] else [⟨.notDeclared name, position⟩]

namespace Expr

def type? (symbols : SymbolTable) : Expr → Option Ty
  | int _ _ => some .integer
  | str _ _ => some .string
  | var name _ => symbols.typeOf? name
  | neg operand _ =>
    match operand.type? symbols with
    | some .integer => some .integer
    | _ => none
  | binary op left right _ =>
    match left.type? symbols, right.type? symbols with
    | some l, some r => if (op.violation? l r).isNone then some .integer else none
    | _, _ => none

/-- What is wrong with an expression, operands first. -/
def violations (symbols : SymbolTable) : Expr → List SemanticError
  | int _ _ | str _ _ => []
  | var name p => symbols.undeclared name p
  | neg operand p =>
    operand.violations symbols ++
      match operand.type? symbols with
      | some .string => [⟨.unaryOperand .string, p⟩]
      | _ => []
  | binary op left right p =>
    left.violations symbols ++ right.violations symbols ++
      match left.type? symbols, right.type? symbols with
      | some l, some r => (op.violation? l r).toList.map fun v => ⟨v, p⟩
      | _, _ => []

/-- The places and types of the typed nodes of an expression, operands first. -/
def typings (symbols : SymbolTable) (e : Expr) : List (Position × Ty) :=
  (match e with
    | int _ _ | str _ _ | var _ _ => []
    | neg operand _ => operand.typings symbols
    | binary _ left right _ => left.typings symbols ++ right.typings symbols) ++
  ((e.type? symbols).map fun type => (e.position, type)).toList

end Expr

end TinyPascal
