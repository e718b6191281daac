import TinyPascal.Syntax.Tree
import TinyPascal.Token.Basic

/-!
# The grammar

Which token lists derive which trees. There is one relation for each level of expressions, for
statements, statement lists, declarations and programs:

    program      := 'program' ID ';' [declarations] 'begin' stmtlist 'end' '.'
    declarations := 'var' decl { decl }
    decl         := ID {',' ID} ':' 'integer' ';'
    stmtlist     := stmt { ';' stmt }
    stmt         := assign | read | write | block | if | while
    assign       := ID ':=' expr
    read         := 'read' '(' ID {',' ID} ')'
    write        := 'write' '(' expr {',' expr} ')'
    block        := 'begin' stmtlist 'end'
    if           := 'if' expr 'then' stmt ['else' stmt]
    while        := 'while' expr 'do' stmt
    expr         := arith [relop arith]
    arith        := term {('+'|'-') term}
    term         := factor {('*'|'/') factor}
    factor       := INT | ID | STRING | '-' factor | '(' expr ')'

Repetitions of operators are rules that recur on the left, so that they group to the left. One
semicolon may follow a statement list, which always stands before an `end`.
-/
namespace TinyPascal.Grammar

/-- The levels of expressions, from the loosest to the tightest. -/
inductive Level where
  | expr | arith | term | factor

/-- `DerivesExpr level ts e`: the tokens `ts` are an expression of the given level with the tree
`e`. -/
inductive DerivesExpr : Level → List Token → Expr → Prop where
  | int {t : Token} {value : Integer} (ht : t.kind = .integerLiteral)
      (hvalue : Integer.ofText? t.lexeme = some value) :
      DerivesExpr .factor [t] (.int value t.position)
  | name {t : Token} (ht : t.kind = .identifier) :
      DerivesExpr .factor [t] (.var t.lexeme t.position)
  | string {t : Token} (ht : t.kind = .stringLiteral) :
      DerivesExpr .factor [t] (.str t.lexeme t.position)
  | minus {t : Token} {ts : List Token} {e : Expr} (ht : t.kind = .mark .minus)
      (he : DerivesExpr .factor ts e) : DerivesExpr .factor (t :: ts) (.neg e t.position)
  | parens {l r : Token} {ts : List Token} {e : Expr} (hl : l.kind = .mark .leftParen)
      (he : DerivesExpr .expr ts e) (hr : r.kind = .mark .rightParen) :
      DerivesExpr .factor (l :: (ts ++ [r])) e
  | factor {ts : List Token} {e : Expr} (he : DerivesExpr .factor ts e) : DerivesExpr .term ts e
  | product {t : Token} {ts us : List Token} {op : BinaryOp} {l r : Expr}
      (hl : DerivesExpr .term ts l) (hop : op.isMultiplicative = true)
      (ht : t.kind = .mark op.mark) (hr : DerivesExpr .factor us r) :
      DerivesExpr .term (ts ++ t :: us) (.binary op l r t.position)
  | term {ts : List Token} {e : Expr} (he : DerivesExpr .term ts e) : DerivesExpr .arith ts e
  | sum {t : Token} {ts us : List Token} {op : BinaryOp} {l r : Expr}
      (hl : DerivesExpr .arith ts l) (hop : op.isAdditive = true)
      (ht : t.kind = .mark op.mark) (hr : DerivesExpr .term us r) :
      DerivesExpr .arith (ts ++ t :: us) (.binary op l r t.position)
  | arith {ts : List Token} {e : Expr} (he : DerivesExpr .arith ts e) : DerivesExpr .expr ts e
  | comparison {t : Token} {ts us : List Token} {op : BinaryOp} {l r : Expr}
      (hl : DerivesExpr .arith ts l) (hop : op.isRelational = true)
      (ht : t.kind = .mark op.mark) (hr : DerivesExpr .arith us r) :
      DerivesExpr .expr (ts ++ t :: us) (.binary op l r t.position)

theorem DerivesExpr.ne_nil {level : Level} {ts : List Token} {e : Expr}
    (h : DerivesExpr level ts e) : ts ≠ [] := by
  induction h with
  | factor _ ih | term _ ih | arith _ ih => exact ih
  | _ => simp

inductive DerivesName : List Token → Identifier → Prop where
  | name {t : Token} (ht : t.kind = .identifier) : DerivesName [t] ⟨t.lexeme, t.position⟩

/-- One or more items with commas between them. -/
inductive DerivesList {α : Type} (Item : List Token → α → Prop) : List Token → List α → Prop where
  | one {ts : List Token} {a : α} (ha : Item ts a) : DerivesList Item ts [a]
  | more {t : Token} {ts us : List Token} {items : List α} {a : α}
      (hitems : DerivesList Item ts items) (ht : t.kind = .mark .comma) (ha : Item us a) :
      DerivesList Item (ts ++ t :: us) (items ++ [a])

theorem DerivesList.exists_name {ts : List Token} {names : List Identifier}
    (h : DerivesList DerivesName ts names) : ∃ t us, ts = t :: us ∧ t.kind = .identifier := by
  induction h with
  | one ha =>
    cases ha with
    | name ht => exact ⟨_, _, rfl, ht⟩
  | more hitems ht ha ih =>
    obtain ⟨t, us, rfl, ht⟩ := ih
    exact ⟨t, _, List.cons_append, ht⟩

/-- The semicolon that may stand between a statement list and its `end`. -/
inductive TrailingSemicolon : List Token → Prop where
  | absent : TrailingSemicolon []
  | present {t : Token} (ht : t.kind = .mark .semicolon) : TrailingSemicolon [t]

mutual

/-- `DerivesStmt beforeElse ts s`: the tokens `ts` are a statement with the tree `s`. The flag
tells whether the token directly after the statement is an `else`. An `else` belongs to the nearest
`if`, so a conditional without an alternative does not stand before one. -/
inductive DerivesStmt : Bool → List Token → Statement → Prop where
  | assign {beforeElse : Bool} {t a : Token} {ts : List Token} {e : Expr}
      (ht : t.kind = .identifier) (ha : a.kind = .mark .assign) (he : DerivesExpr .expr ts e) :
      DerivesStmt beforeElse (t :: a :: ts) (.assign ⟨t.lexeme, t.position⟩ e t.position)
  | read {beforeElse : Bool} {t l r : Token} {ts : List Token} {targets : List Identifier}
      (ht : t.kind = .keyword .read) (hl : l.kind = .mark .leftParen)
      (htargets : DerivesList DerivesName ts targets) (hr : r.kind = .mark .rightParen) :
      DerivesStmt beforeElse (t :: l :: (ts ++ [r])) (.read targets t.position)
  | write {beforeElse : Bool} {t l r : Token} {ts : List Token} {values : List Expr}
      (ht : t.kind = .keyword .write) (hl : l.kind = .mark .leftParen)
      (hvalues : DerivesList (DerivesExpr .expr) ts values) (hr : r.kind = .mark .rightParen) :
      DerivesStmt beforeElse (t :: l :: (ts ++ [r])) (.write values t.position)
  | block {beforeElse : Bool} {t u : Token} {ts last : List Token} {body : List Statement}
      (ht : t.kind = .keyword .begin) (hbody : DerivesStmts false ts body)
      (hlast : TrailingSemicolon last) (hu : u.kind = .keyword .«end») :
      DerivesStmt beforeElse (t :: (ts ++ (last ++ [u]))) (.block body t.position)
  | ifThen {t u : Token} {ts us : List Token} {e : Expr} {s : Statement}
      (ht : t.kind = .keyword .«if») (he : DerivesExpr .expr ts e)
      (hu : u.kind = .keyword .«then») (hs : DerivesStmt false us s) :
      DerivesStmt false (t :: (ts ++ u :: us)) (.ifThen e s t.position)
  | ifElse {beforeElse : Bool} {t u v : Token} {ts us vs : List Token} {e : Expr}
      {s r : Statement} (ht : t.kind = .keyword .«if») (he : DerivesExpr .expr ts e)
      (hu : u.kind = .keyword .«then») (hs : DerivesStmt true us s)
      (hv : v.kind = .keyword .«else») (hr : DerivesStmt beforeElse vs r) :
      DerivesStmt beforeElse (t :: (ts ++ u :: (us ++ v :: vs))) (.ifElse e s r t.position)
  | whileDo {beforeElse : Bool} {t u : Token} {ts us : List Token} {e : Expr} {s : Statement}
      (ht : t.kind = .keyword .«while») (he : DerivesExpr .expr ts e)
      (hu : u.kind = .keyword .«do») (hs : DerivesStmt beforeElse us s) :
      DerivesStmt beforeElse (t :: (ts ++ u :: us)) (.whileDo e s t.position)

/-- One or more statements with semicolons between them. -/
inductive DerivesStmts : Bool → List Token → List Statement → Prop where
  | one {beforeElse : Bool} {ts : List Token} {s : Statement} (hs : DerivesStmt beforeElse ts s) :
      DerivesStmts beforeElse ts [s]
  | more {beforeElse : Bool} {t : Token} {ts us : List Token} {body : List Statement}
      {s : Statement} (hbody : DerivesStmts false ts body) (ht : t.kind = .mark .semicolon)
      (hs : DerivesStmt beforeElse us s) : DerivesStmts beforeElse (ts ++ t :: us) (body ++ [s])

end

theorem DerivesStmt.ne_nil {beforeElse : Bool} {ts : List Token} {s : Statement}
    (h : DerivesStmt beforeElse ts s) : ts ≠ [] := by
  cases h <;> simp

/-- A group of names with their type, at the place of the first name. -/
inductive DerivesDecl : List Token → Declaration → Prop where
  | decl {t c i s : Token} {ts : List Token} {names : List Identifier}
      (hnames : DerivesList DerivesName (t :: ts) names) (hc : c.kind = .mark .colon)
      (hi : i.kind = .keyword .integer) (hs : s.kind = .mark .semicolon) :
      DerivesDecl (t :: (ts ++ [c, i, s])) ⟨names, .integer, t.position⟩

inductive DerivesDecls : List Token → List Declaration → Prop where
  | one {ts : List Token} {d : Declaration} (hd : DerivesDecl ts d) : DerivesDecls ts [d]
  | more {ts us : List Token} {ds : List Declaration} {d : Declaration}
      (hds : DerivesDecls ts ds) (hd : DerivesDecl us d) : DerivesDecls (ts ++ us) (ds ++ [d])

/-- The declarations of a program, which may be left out. -/
inductive DerivesDeclarations : List Token → List Declaration → Prop where
  | absent : DerivesDeclarations [] []
  | present {t : Token} {ts : List Token} {ds : List Declaration} (ht : t.kind = .keyword .var)
      (hds : DerivesDecls ts ds) : DerivesDeclarations (t :: ts) ds

/-- `DerivesProgram ts p`: the tokens `ts` are a program with the tree `p`. -/
inductive DerivesProgram : List Token → Program → Prop where
  | program {t n s b e d : Token} {ds ts last : List Token} {declarations : List Declaration}
      {body : List Statement} (ht : t.kind = .keyword .program) (hn : n.kind = .identifier)
      (hs : s.kind = .mark .semicolon) (hds : DerivesDeclarations ds declarations)
      (hb : b.kind = .keyword .begin) (hbody : DerivesStmts false ts body)
      (hlast : TrailingSemicolon last) (he : e.kind = .keyword .«end»)
      (hd : d.kind = .mark .dot) :
      DerivesProgram (t :: n :: s :: (ds ++ b :: (ts ++ (last ++ [e, d]))))
        ⟨⟨n.lexeme, n.position⟩, declarations, body, t.position⟩

end TinyPascal.Grammar
