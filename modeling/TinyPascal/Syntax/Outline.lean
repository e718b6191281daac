import TinyPascal.Outline
import TinyPascal.Text.Escaped
import TinyPascal.Typing.Analysis

/-!
# Outlines of programs

Each node of a syntax tree becomes a label that names its kind and content. With a type map, the
label of an expression also has the type found at its position.
-/
namespace TinyPascal

namespace Expr

def label : Expr → String
  | int value _ => "Num: " ++ value.text
  | str value _ => "String: \"" ++ .ofList (Text.escape value.toList) ++ "\""
  | var name _ => "Var: " ++ name
  | neg _ _ => "Op: -"
  | binary op _ _ _ => "Op: " ++ op.symbol

/-- The label of an expression, with the type found at its position. -/
def typedLabel (types : Option TypeMap) (e : Expr) : String :=
  match types.bind fun types => types[e.position]? with
  | some type => e.label ++ " : " ++ type.name
  | none => e.label

def outline (types : Option TypeMap) (e : Expr) : Outline :=
  .node (e.typedLabel types) <|
    match e with
    | int _ _ | str _ _ | var _ _ => []
    | neg operand _ => [operand.outline types]
    | binary _ left right _ => [left.outline types, right.outline types]

end Expr

def Identifier.commaList (names : List Identifier) : String :=
  ", ".intercalate (names.map Identifier.name)

namespace Statement

mutual

def outline (types : Option TypeMap) : Statement → Outline
  | assign target value _ => .node ("Assignment: " ++ target.name ++ " :=") [value.outline types]
  | read targets _ => .leaf ("Read: " ++ Identifier.commaList targets)
  | write values _ => .node "Write" (values.map (Expr.outline types))
  | block body _ => .node "Block" (outlines types body)
  | ifThen condition consequent _ =>
    .node "If" [.node "Condition" [condition.outline types],
      .node "Then" [consequent.outline types]]
  | ifElse condition consequent alternative _ =>
    .node "If" [.node "Condition" [condition.outline types],
      .node "Then" [consequent.outline types], .node "Else" [alternative.outline types]]
  | whileDo condition body _ =>
    .node "While" [.node "Condition" [condition.outline types], .node "Body" [body.outline types]]

def outlines (types : Option TypeMap) : List Statement → List Outline
  | [] => []
  | s :: rest => s.outline types :: outlines types rest

end

end Statement

def Declaration.outline (d : Declaration) : Outline :=
  .leaf ("Declaration: " ++ Identifier.commaList d.names ++ " : " ++ d.type.name)

namespace Program

def outline (types : Option TypeMap) (program : Program) : Outline :=
  .node ("Program: " ++ program.name.name)
    (program.declarations.map Declaration.outline ++ Statement.outlines types program.statements)

def render (types : Option TypeMap) (program : Program) : String :=
  (program.outline types).render

end Program

end TinyPascal
