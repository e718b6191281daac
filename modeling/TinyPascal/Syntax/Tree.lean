import TinyPascal.Integer
import TinyPascal.Position
import TinyPascal.Syntax.Operator

/-!
# Syntax trees

Expressions, statements and programs. Every node carries the position of the token it is anchored
to: an operation that of its operator, an assignment that of its target, any other node that of
its first token. A tree need not be the result of parsing: lists may be empty, a declaration may
have type string, and positions may repeat.
-/
namespace TinyPascal

inductive Ty where
  | integer | string
deriving DecidableEq, Repr

def Ty.name : Ty → String
  | integer => "integer"
  | string => "string"

structure Identifier where
  name : String
  position : Position
deriving DecidableEq, Repr

inductive Expr where
  | int (value : Integer) (position : Position)
  | str (value : String) (position : Position)
  | var (name : String) (position : Position)
  | neg (operand : Expr) (position : Position)
  | binary (op : BinaryOp) (left right : Expr) (position : Position)
deriving DecidableEq, Repr

namespace Expr

def position : Expr → Position
  | int _ p | str _ p | var _ p | neg _ p | binary _ _ _ p => p

end Expr

inductive Statement where
  | assign (target : Identifier) (value : Expr) (position : Position)
  | read (targets : List Identifier) (position : Position)
  | write (values : List Expr) (position : Position)
  | block (body : List Statement) (position : Position)
  | ifThen (condition : Expr) (consequent : Statement) (position : Position)
  | ifElse (condition : Expr) (consequent alternative : Statement) (position : Position)
  | whileDo (condition : Expr) (body : Statement) (position : Position)
deriving Repr

namespace Statement

def position : Statement → Position
  | assign _ _ p | read _ p | write _ p | block _ p | ifThen _ _ p | ifElse _ _ _ p
  | whileDo _ _ p => p

end Statement

/-- A group of names declared with one type. -/
structure Declaration where
  names : List Identifier
  type : Ty
  position : Position
deriving DecidableEq, Repr

structure Program where
  name : Identifier
  declarations : List Declaration
  statements : List Statement
  position : Position
deriving Repr

end TinyPascal
