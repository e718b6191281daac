import TinyPascal.Typing.Expression

/-!
# Violations of statements

Targets must be declared, an assigned value must have the type of its target, and conditions must
be integers. Violations come in the order of the text, with the one of a statement itself after
those of its condition or value.
-/
namespace TinyPascal

def Expr.conditionViolations (symbols : SymbolTable) (p : Position) (condition : Expr) :
    List SemanticError :=
  condition.violations symbols ++
    match condition.type? symbols with
    | some .string => [⟨.conditionNotInteger .string, p⟩]
    | _ => []

def Identifier.assignmentViolations (symbols : SymbolTable) (target : Identifier) (value : Expr)
    (p : Position) : List SemanticError :=
  symbols.undeclared target.name target.position ++ value.violations symbols ++
    match symbols.typeOf? target.name, value.type? symbols with
    | some expected, some found =>
      if expected = found then [] else [⟨.incompatibleTypes target.name expected found, p⟩]
    | _, _ => []

namespace Statement

mutual

def violations (symbols : SymbolTable) : Statement → List SemanticError
  | assign target value p => target.assignmentViolations symbols value p
  | read targets _ => targets.flatMap fun target => symbols.undeclared target.name target.position
  | write values _ => values.flatMap (Expr.violations symbols)
  | block body _ => violationsOfAll symbols body
  | ifThen condition consequent p =>
    condition.conditionViolations symbols p ++ consequent.violations symbols
  | ifElse condition consequent alternative p =>
    condition.conditionViolations symbols p ++ consequent.violations symbols ++
      alternative.violations symbols
  | whileDo condition body p => condition.conditionViolations symbols p ++ body.violations symbols

def violationsOfAll (symbols : SymbolTable) : List Statement → List SemanticError
  | [] => []
  | s :: rest => s.violations symbols ++ violationsOfAll symbols rest

end

mutual

/-- The outermost expressions of a statement, in the order of the text. -/
def expressions : Statement → List Expr
  | assign _ value _ => [value]
  | read _ _ => []
  | write values _ => values
  | block body _ => expressionsOfAll body
  | ifThen condition consequent _ => condition :: consequent.expressions
  | ifElse condition consequent alternative _ =>
    condition :: (consequent.expressions ++ alternative.expressions)
  | whileDo condition body _ => condition :: body.expressions

def expressionsOfAll : List Statement → List Expr
  | [] => []
  | s :: rest => s.expressions ++ expressionsOfAll rest

end

end Statement

end TinyPascal
