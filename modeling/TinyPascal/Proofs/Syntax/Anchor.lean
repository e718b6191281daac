import Mathlib.Data.List.Forall2
import TinyPascal.Proofs.Syntax.Soundness

/-!
# Anchors of expressions

Every node of an expression is anchored to a token: a literal or a name to its own token, a negation
to its minus sign and an operation to its operator. Parentheses anchor nothing. In the order of
their anchors, the nodes of a program that is read take up different tokens of the list.
-/
namespace TinyPascal

/-- The nodes of an expression in the order of their anchors: an operator stands between its
operands and a minus sign before its operand. -/
def Expr.nodes : Expr → List Expr
  | int value p => [int value p]
  | str value p => [str value p]
  | var name p => [var name p]
  | neg operand p => neg operand p :: operand.nodes
  | binary op left right p => left.nodes ++ binary op left right p :: right.nodes

/-- The nodes of an expression in the order in which they are visited: operands first, from left to
right. -/
def Expr.postorder : Expr → List Expr
  | int value p => [int value p]
  | str value p => [str value p]
  | var name p => [var name p]
  | neg operand p => operand.postorder ++ [neg operand p]
  | binary op left right p => left.postorder ++ (right.postorder ++ [binary op left right p])

namespace Statement

mutual

/-- The expression nodes of a statement, in the order of their anchors. -/
def nodes : Statement → List Expr
  | assign _ value _ => value.nodes
  | read _ _ => []
  | write values _ => values.flatMap Expr.nodes
  | block body _ => nodesOfAll body
  | ifThen condition consequent _ => condition.nodes ++ consequent.nodes
  | ifElse condition consequent alternative _ =>
    condition.nodes ++ (consequent.nodes ++ alternative.nodes)
  | whileDo condition body _ => condition.nodes ++ body.nodes

def nodesOfAll : List Statement → List Expr
  | [] => []
  | s :: rest => s.nodes ++ nodesOfAll rest

end

theorem nodesOfAll_eq_flatMap (body : List Statement) : nodesOfAll body = body.flatMap nodes := by
  induction body with
  | nil => rw [nodesOfAll, List.flatMap_nil]
  | cons s rest ih => rw [nodesOfAll, ih, List.flatMap_cons]

end Statement

def Program.nodes (program : Program) : List Expr :=
  Statement.nodesOfAll program.statements

/-- `t.Anchors e`: the token stands for the node `e`, at the same place. -/
inductive Token.Anchors : Token → Expr → Prop where
  | int {t : Token} {value : Integer} (ht : t.kind = .integerLiteral)
      (hvalue : Integer.ofText? t.lexeme = some value) : Anchors t (.int value t.position)
  | str {t : Token} (ht : t.kind = .stringLiteral) : Anchors t (.str t.lexeme t.position)
  | var {t : Token} (ht : t.kind = .identifier) : Anchors t (.var t.lexeme t.position)
  | neg {t : Token} (operand : Expr) (ht : t.kind = .mark .minus) :
      Anchors t (.neg operand t.position)
  | binary {t : Token} {op : BinaryOp} (left right : Expr) (ht : t.kind = .mark op.mark) :
      Anchors t (.binary op left right t.position)

theorem Token.Anchors.position_eq {t : Token} {e : Expr} (h : t.Anchors e) :
    t.position = e.position := by
  cases h <;> rfl

/-- The nodes are anchored, in this order, to different tokens of the list. -/
def Anchored (ts : List Token) (nodes : List Expr) : Prop :=
  ∃ anchors : List Token, anchors.Sublist ts ∧ List.Forall₂ Token.Anchors anchors nodes

namespace Anchored

variable {t : Token} {e : Expr} {ts us : List Token} {nodes more : List Expr}

theorem nil (ts : List Token) : Anchored ts [] := ⟨[], List.nil_sublist ts, .nil⟩

theorem cons (ht : t.Anchors e) (h : Anchored ts nodes) : Anchored (t :: ts) (e :: nodes) := by
  obtain ⟨anchors, hsublist, hanchors⟩ := h
  exact ⟨t :: anchors, hsublist.cons_cons t, .cons ht hanchors⟩

theorem append (h : Anchored ts nodes) (hmore : Anchored us more) :
    Anchored (ts ++ us) (nodes ++ more) := by
  obtain ⟨anchors, hsublist, hanchors⟩ := h
  obtain ⟨others, hsublist', hothers⟩ := hmore
  exact ⟨anchors ++ others, hsublist.append hsublist', List.rel_append hanchors hothers⟩

theorem mono (h : Anchored ts nodes) (hsublist : ts.Sublist us) : Anchored us nodes := by
  obtain ⟨anchors, hanchors, hnodes⟩ := h
  exact ⟨anchors, hanchors.trans hsublist, hnodes⟩

theorem skip (h : Anchored ts nodes) (t : Token) : Anchored (t :: ts) nodes :=
  h.mono (List.sublist_cons_self t ts)

theorem skipLast (h : Anchored ts nodes) (us : List Token) : Anchored (ts ++ us) nodes :=
  h.mono (List.sublist_append_left ts us)

/-- Nodes that are anchored to tokens at different places are at different places. -/
theorem nodup_position (h : Anchored ts nodes)
    (hts : ts.Pairwise fun t u => t.position ≠ u.position) : (nodes.map Expr.position).Nodup := by
  obtain ⟨anchors, hsublist, hanchors⟩ := h
  have hpositions : anchors.map Token.position = nodes.map Expr.position := by
    clear hsublist
    induction hanchors with
    | nil => rfl
    | cons ht _ ih => rw [List.map_cons, List.map_cons, ht.position_eq, ih]
  rw [← hpositions, List.Nodup, List.pairwise_map]
  exact hts.sublist hsublist

end Anchored

namespace Grammar

variable {ts : List Token}

theorem DerivesExpr.anchored {level : Level} {e : Expr} (h : DerivesExpr level ts e) :
    Anchored ts e.nodes := by
  induction h with
  | int ht hvalue => exact .cons (.int ht hvalue) (.nil [])
  | name ht => exact .cons (.var ht) (.nil [])
  | string ht => exact .cons (.str ht) (.nil [])
  | minus ht he ih => exact ih.cons (.neg _ ht)
  | parens hl he hr ih => exact (ih.skipLast _).skip _
  | factor he ih | term he ih | arith he ih => exact ih
  | product hl hop ht hr ihl ihr | sum hl hop ht hr ihl ihr | comparison hl hop ht hr ihl ihr =>
    exact ihl.append (ihr.cons (.binary _ _ ht))

theorem DerivesList.anchored {values : List Expr}
    (h : DerivesList (DerivesExpr .expr) ts values) : Anchored ts (values.flatMap Expr.nodes) := by
  induction h with
  | one he => simpa using he.anchored
  | more _ ht he ih =>
    rw [List.flatMap_append, List.flatMap_singleton]
    exact ih.append (he.anchored.skip _)

mutual

theorem DerivesStmt.anchored {beforeElse : Bool} {ts : List Token} {s : Statement} :
    DerivesStmt beforeElse ts s → Anchored ts s.nodes
  | .assign _ _ he => by
    rw [Statement.nodes]
    exact (he.anchored.skip _).skip _
  | .read _ _ _ _ => by
    rw [Statement.nodes]
    exact .nil _
  | .write _ _ hvalues _ => by
    rw [Statement.nodes]
    exact ((hvalues.anchored.skipLast _).skip _).skip _
  | .block _ hbody _ _ => by
    rw [Statement.nodes]
    exact (hbody.anchored.skipLast _).skip _
  | .ifThen _ he _ hs => by
    rw [Statement.nodes]
    exact (he.anchored.append (hs.anchored.skip _)).skip _
  | .ifElse _ he _ hs _ hr => by
    rw [Statement.nodes]
    exact (he.anchored.append ((hs.anchored.append (hr.anchored.skip _)).skip _)).skip _
  | .whileDo _ he _ hs => by
    rw [Statement.nodes]
    exact (he.anchored.append (hs.anchored.skip _)).skip _

theorem DerivesStmts.anchored {beforeElse : Bool} {ts : List Token} {body : List Statement} :
    DerivesStmts beforeElse ts body → Anchored ts (Statement.nodesOfAll body)
  | .more hbody _ hs => by
    rw [Statement.nodesOfAll_eq_flatMap, List.flatMap_append, List.flatMap_singleton,
      ← Statement.nodesOfAll_eq_flatMap]
    exact hbody.anchored.append (hs.anchored.skip _)
  | .one hs => by
    rw [Statement.nodesOfAll_eq_flatMap, List.flatMap_singleton]
    exact hs.anchored

end

theorem DerivesProgram.anchored {ts : List Token} {p : Program} (h : DerivesProgram ts p) :
    Anchored ts p.nodes := by
  cases h with
  | @program t n s b e d ds _ last _ _ _ _ _ _ _ hbody _ _ _ =>
    have hstatements := (hbody.anchored.skipLast (last ++ [e, d])).skip b
    have hdeclared := hstatements.mono (List.sublist_append_right ds _)
    exact ((hdeclared.skip s).skip n).skip t

end Grammar

/-- The nodes of an expression that is read are anchored to different tokens of its text. -/
theorem Rule.anchored_of_expression {ts rest : List Token} {e : Expr}
    (h : Rule.expression ts = .ok e rest) :
    ∃ consumed, ts = consumed ++ rest ∧ Anchored consumed e.nodes := by
  obtain ⟨consumed, rfl, hderives⟩ := Rule.expression_yields h
  exact ⟨consumed, rfl, hderives.anchored⟩

/-- The nodes of a program that is read are anchored to different tokens of the list. -/
theorem anchored_of_parse {tokens : List Token} {program : Program}
    (h : parse tokens = .ok program) : Anchored tokens program.nodes := by
  obtain ⟨rest, hrule⟩ := parse_eq_ok.1 h
  obtain ⟨consumed, rfl, hderives, -⟩ := Rule.program_yields hrule
  exact hderives.anchored.skipLast rest

end TinyPascal
