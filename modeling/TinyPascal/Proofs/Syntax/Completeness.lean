import TinyPascal.Proofs.Syntax.Soundness

/-!
# Rules read all that the grammar derives

A token list that derives a node is read as that node, whatever follows it, as long as what follows
cannot go on with it: after an expression no binary operator, and after a statement an `else` only
where the derivation says so. The bounds of the rules are never reached, because what stands inside
parentheses or inside a statement is shorter than the whole.
-/
namespace TinyPascal.Rule

open Grammar

variable {α : Type} {t : Token} {ts us rest : List Token}

theorem signed_of_not_minus {inner : Rule Expr} (h : startsWith (.mark .minus) ts = false) :
    signed inner ts = primary inner ts := by
  have hsigns : takeWhile (.mark .minus) ts = .ok [] ts := by
    rw [takeWhile_apply]
    cases ts with
    | nil => rfl
    | cons t ts =>
      rw [startsWith_cons] at h
      rw [List.takeWhile_cons, List.dropWhile_cons, h]
      rfl
  rw [signed, bind_of_ok hsigns]
  change EStateM.bind (primary inner) (fun operand => pure operand) ts = _
  rw [EStateM.bind]
  cases primary inner ts <;> rfl

theorem signed_minus {inner : Rule Expr} (ht : t.kind = .mark .minus) :
    signed inner (t :: ts) = (do return .neg (← signed inner) t.position : Rule Expr) ts := by
  rw [signed, bind_of_ok takeWhile_apply, List.takeWhile_cons, List.dropWhile_cons, ht]
  simp only [bind_assoc, pure_bind]
  rw [bind_of_ok takeWhile_apply]
  rfl

theorem signed_cons_minus {inner : Rule Expr} {e : Expr} (ht : t.kind = .mark .minus)
    (h : signed inner ts = .ok e rest) :
    signed inner (t :: ts) = .ok (.neg e t.position) rest := by
  rw [signed_minus ht, bind_of_ok h]
  rfl

abbrev ChainReaches (accepts : BinaryOp → Bool) (operand : Rule Expr) :
    List Token → Expr → List Token → Prop :=
  Reaches operand id (chainStep accepts operand)

theorem ChainReaches.binary {accepts : BinaryOp → Bool} {operand : Rule Expr} {op : BinaryOp}
    {l r : Expr} (h : ChainReaches accepts operand ts l (t :: (us ++ rest)))
    (ht : t.kind = .mark op.mark) (hop : accepts op = true)
    (hr : operand (us ++ rest) = .ok r rest) :
    ChainReaches accepts operand ts (.binary op l r t.position) rest := by
  refine h.more ?_ (by simp)
  rw [chainStep, bind_of_ok (operator_of_accepts ht hop)]
  exact bind_of_ok hr _

theorem ChainReaches.leftChain {accepts : BinaryOp → Bool} {operand : Rule Expr} {e : Expr}
    (h : ChainReaches accepts operand ts e rest)
    (hstops : ∀ op, headOp? rest = some op → accepts op = false) :
    leftChain accepts operand ts = .ok e rest := by
  obtain ⟨a, us, ha, h⟩ := h.stop (bind_of_ok (operator_of_stops hstops) _)
  exact (bind_of_ok ha _).trans h

/-- How an expression of a level is read, with the bound `n` for what is in parentheses. -/
def Reads (n : ℕ) : Level → List Token → Expr → List Token → Prop
  | .factor, ts, e, rest => signed (expressionWithin n) ts = .ok e rest
  | .term, ts, e, rest =>
    ChainReaches BinaryOp.isMultiplicative (signed (expressionWithin n)) ts e rest
  | .arith, ts, e, rest =>
    (∀ op, headOp? rest = some op → op.isMultiplicative = false) →
      ChainReaches BinaryOp.isAdditive (multiplicativeOver (expressionWithin n)) ts e rest
  | .expr, ts, e, rest =>
    headOp? rest = none → relationalOver (expressionWithin n) ts = .ok e rest

theorem primary_int {inner : Rule Expr} {value : Integer} (ht : t.kind = .integerLiteral)
    (hvalue : Integer.ofText? t.lexeme = some value) :
    primary inner (t :: ts) = .ok (.int value t.position) ts := by
  rw [primary, bind_of_ok next_cons]
  simp only [ht, hvalue]
  rfl

theorem primary_string {inner : Rule Expr} (ht : t.kind = .stringLiteral) :
    primary inner (t :: ts) = .ok (.str t.lexeme t.position) ts := by
  rw [primary, bind_of_ok next_cons]
  simp only [ht]
  rfl

theorem primary_name {inner : Rule Expr} (ht : t.kind = .identifier) :
    primary inner (t :: ts) = .ok (.var t.lexeme t.position) ts := by
  rw [primary, bind_of_ok next_cons]
  simp only [ht]
  rfl

theorem primary_parens {inner : Rule Expr} {r : Token} {e : Expr} (ht : t.kind = .mark .leftParen)
    (hinner : inner ts = .ok e (r :: rest)) (hr : r.kind = .mark .rightParen) :
    primary inner (t :: ts) = .ok e rest := by
  rw [primary, bind_of_ok next_cons]
  simp only [ht]
  rw [bind_of_ok hinner, bind_of_ok (expect_cons hr)]
  rfl

theorem isAdditive_eq_false_of_isRelational {op : BinaryOp} (h : op.isRelational = true) :
    op.isAdditive = false ∧ op.isMultiplicative = false := by
  cases op with
  | arithmetic op => cases h
  | relational op => exact ⟨rfl, rfl⟩

theorem isMultiplicative_eq_false_of_isAdditive {op : BinaryOp} (h : op.isAdditive = true) :
    op.isMultiplicative = false := by
  cases op with
  | arithmetic op => simpa [BinaryOp.isMultiplicative, BinaryOp.isAdditive] using h
  | relational op => rfl

theorem headOp?_cons_of_mark {op : BinaryOp} (ht : t.kind = .mark op.mark) :
    headOp? (t :: ts) = some op := by
  rw [headOp?_cons]
  exact ofKind?_eq_some.2 ht

/-- An expression is read back from its tokens on every level. -/
theorem reads_of_derivesExpr {level : Level} {e : Expr} (h : DerivesExpr level us e) (n : ℕ)
    (rest : List Token) (hn : us.length ≤ n + 1) : Reads n level (us ++ rest) e rest := by
  induction h generalizing n rest with
  | @int t value ht hvalue =>
    refine (signed_of_not_minus ?_).trans (primary_int ht hvalue)
    rw [List.singleton_append, startsWith_cons, ht]
    rfl
  | @name t ht =>
    refine (signed_of_not_minus ?_).trans (primary_name ht)
    rw [List.singleton_append, startsWith_cons, ht]
    rfl
  | @string t ht =>
    refine (signed_of_not_minus ?_).trans (primary_string ht)
    rw [List.singleton_append, startsWith_cons, ht]
    rfl
  | minus ht he ih => exact signed_cons_minus ht (ih n rest (by simp at hn; omega))
  | @parens l r ts e hl he hr ih =>
    obtain ⟨n, rfl⟩ : ∃ m, n = m + 1 := ⟨n - 1, by simp at hn; omega⟩
    have hinner : expressionWithin (n + 1) (ts ++ r :: rest) = .ok e (r :: rest) := by
      refine ih n (r :: rest) (by simp at hn; omega) ?_
      rw [headOp?_cons, hr]
      rfl
    refine (signed_of_not_minus ?_).trans (primary_parens hl ?_ hr)
    · rw [List.cons_append, startsWith_cons, hl]
      rfl
    · simpa using hinner
  | factor he ih => exact .one (ih n rest hn)
  | @product t ts us op l r hl hop ht hr ihl ihr =>
    rw [List.append_assoc]
    exact (ihl n (t :: us ++ rest) (by simp at hn; omega)).binary ht hop
      (ihr n rest (by simp at hn; omega))
  | term he ih =>
    intro hstops
    exact .one ((ih n rest hn).leftChain hstops)
  | @sum t ts us op l r hl hop ht hr ihl ihr =>
    intro hstops
    rw [List.append_assoc]
    have hleft := ihl n (t :: us ++ rest) (by simp at hn; omega) fun o ho => by
      rw [List.cons_append, headOp?_cons_of_mark ht] at ho
      exact isMultiplicative_eq_false_of_isAdditive (Option.some.inj ho ▸ hop)
    exact hleft.binary ht hop ((ihr n rest (by simp at hn; omega)).leftChain hstops)
  | arith he ih =>
    intro hstops
    have hadditive := (ih n rest hn (by simp [hstops])).leftChain (by simp [hstops])
    rw [relationalOver]
    refine (bind_of_ok hadditive _).trans ?_
    exact bind_of_ok (operator_of_stops (by simp [hstops])) _
  | @comparison t ts us op l r hl hop ht hr ihl ihr =>
    intro hstops
    have hhead : ∀ o, headOp? (t :: us ++ rest) = some o → o = op := fun o ho => by
      rw [List.cons_append, headOp?_cons_of_mark ht] at ho
      exact (Option.some.inj ho).symm
    have hleft := (ihl n (t :: us ++ rest) (by simp at hn; omega)
      fun o ho => (isAdditive_eq_false_of_isRelational (hhead o ho ▸ hop)).2).leftChain
      fun o ho => (isAdditive_eq_false_of_isRelational (hhead o ho ▸ hop)).1
    have hright :=
      (ihr n rest (by simp at hn; omega) (by simp [hstops])).leftChain (by simp [hstops])
    rw [relationalOver, List.append_assoc]
    refine (bind_of_ok hleft _).trans ?_
    refine (bind_of_ok (operator_of_accepts ht hop) _).trans ?_
    exact bind_of_ok hright _

theorem expression_of_derivesExpr {e : Expr} (h : DerivesExpr .expr us e)
    (hstops : headOp? rest = none) : expression (us ++ rest) = .ok e rest := by
  obtain ⟨n, hn⟩ : ∃ n, (us ++ rest).length = n + 1 := by
    have := List.length_pos_of_ne_nil h.ne_nil
    exact ⟨(us ++ rest).length - 1, by simp; omega⟩
  change expressionWithin (us ++ rest).length (us ++ rest) = _
  rw [hn]
  refine reads_of_derivesExpr h n rest ?_ hstops
  rw [List.length_append] at hn
  omega

theorem identifier_of_derivesName {what : String} (us : List Token) (i : Identifier)
    (rest : List Token) (h : DerivesName us i) (_hstops : headOp? rest = none) :
    identifier what (us ++ rest) = .ok i rest := by
  cases h with
  | name ht => exact identifier_eq_ok.2 ⟨_, rfl, ht, rfl⟩

theorem furtherItems_of_derivesList {item : Rule α} {Item : List Token → α → Prop} {items : List α}
    (hitem : ∀ us a rest, Item us a → headOp? rest = none → item (us ++ rest) = .ok a rest)
    (h : DerivesList Item us items) (hstops : headOp? rest = none)
    (hcomma : startsWith (.mark .comma) rest = false) :
    ∃ a vs, item (us ++ rest) = .ok a vs ∧ furtherItems item [a] vs = .ok items rest := by
  suffices hreaches : Reaches item (fun a => [a]) (itemStep item) (us ++ rest) items rest from
    hreaches.stop (bind_of_ok (accept_of_not_startsWith hcomma) _)
  clear hcomma
  induction h generalizing rest with
  | one ha => exact .one (hitem _ _ _ ha hstops)
  | @more t ts us items a hitems ht ha ih =>
    rw [List.append_assoc]
    have hrest := @ih (t :: us ++ rest) (by rw [List.cons_append, headOp?_cons, ht]; rfl)
    refine hrest.more ?_ (by simp)
    rw [itemStep, List.cons_append, bind_of_ok (accept_cons ht)]
    exact bind_of_ok (hitem _ _ _ ha hstops) _

theorem commaSeparated_of_derivesList {item : Rule α} {Item : List Token → α → Prop}
    {items : List α}
    (hitem : ∀ us a rest, Item us a → headOp? rest = none → item (us ++ rest) = .ok a rest)
    (h : DerivesList Item us items) (hstops : headOp? rest = none)
    (hcomma : startsWith (.mark .comma) rest = false) :
    commaSeparated item (us ++ rest) = .ok items rest := by
  obtain ⟨a, vs, ha, hitems⟩ := furtherItems_of_derivesList hitem h hstops hcomma
  exact (bind_of_ok ha _).trans hitems

/-- The rule reads every statement of at most `m` tokens. -/
def ReadsStmts (rule : Rule Statement) (m : ℕ) : Prop :=
  ∀ ⦃us s rest⦄, DerivesStmt (startsWith (.keyword .«else») rest) us s → us.length ≤ m →
    headOp? rest = none → rule (us ++ rest) = .ok s rest

theorem startsWith_end_of_derivesStmt {beforeElse : Bool} {s : Statement}
    (h : DerivesStmt beforeElse us s) : startsWith (.keyword .«end») (us ++ rest) = false := by
  cases h with
  | assign ht _ _ | read ht _ _ _ | write ht _ _ _ | block ht _ _ _ | ifThen ht _ _ _
  | ifElse ht _ _ _ _ _ | whileDo ht _ _ _ =>
    rw [List.cons_append, startsWith_cons, ht]
    rfl

theorem reaches_of_derivesStmts {statement : Rule Statement} {m : ℕ}
    (hstatement : ReadsStmts statement m) {beforeElse : Bool} {body : List Statement}
    (h : DerivesStmts beforeElse us body) (hm : us.length ≤ m) (rest : List Token)
    (helse : startsWith (.keyword .«else») rest = beforeElse) (hstops : headOp? rest = none) :
    Reaches statement (fun s => [s]) (statementsStep statement) (us ++ rest) body rest := by
  induction hlength : us.length using Nat.strong_induction_on
    generalizing beforeElse us body rest with
  | _ n ih =>
    cases h with
    | one hs => exact .one (hstatement (helse ▸ hs) hm hstops)
    | @more _ t ts us body s hbody ht hs =>
      rw [List.length_append, List.length_cons] at hm hlength
      have hlist := ih ts.length (by omega) hbody (by omega) (t :: us ++ rest)
        (by rw [List.cons_append, startsWith_cons, ht]; rfl)
        (by rw [List.cons_append, headOp?_cons, ht]; rfl) rfl
      rw [List.append_assoc]
      refine hlist.more ?_ (by simp)
      rw [statementsStep, List.cons_append, bind_of_ok (accept_cons ht), if_pos rfl,
        bind_of_ok nextIs_apply, startsWith_end_of_derivesStmt hs]
      exact bind_of_ok (hstatement (helse ▸ hs) (by omega) hstops) _

/-- A statement list before an `end`, with or without a semicolon between them. -/
theorem statementsOver_of_derivesStmts {statement : Rule Statement} {m : ℕ}
    (hstatement : ReadsStmts statement m) {body : List Statement} {last : List Token} {u : Token}
    (h : DerivesStmts false us body) (hm : us.length ≤ m) (hlast : TrailingSemicolon last)
    (hu : u.kind = .keyword .«end») :
    statementsOver statement (us ++ (last ++ u :: rest)) = .ok body (u :: rest) := by
  suffices hreaches : Reaches statement (fun s => [s]) (statementsStep statement)
      (us ++ (last ++ u :: rest)) body (u :: rest) by
    obtain ⟨s, vs, hs, hbody⟩ := hreaches.stop
      (bind_of_ok (accept_of_not_startsWith (by rw [startsWith_cons, hu]; rfl)) _)
    exact (bind_of_ok hs _).trans hbody
  cases hlast with
  | absent =>
    refine reaches_of_derivesStmts hstatement h hm (u :: rest) ?_ ?_
    · rw [startsWith_cons, hu]
      rfl
    · rw [headOp?_cons, hu]
      rfl
  | @present t ht =>
    have hlist : Reaches statement (fun s => [s]) (statementsStep statement)
        (us ++ t :: u :: rest) body (t :: u :: rest) := by
      refine reaches_of_derivesStmts hstatement h hm (t :: u :: rest) ?_ ?_
      · rw [startsWith_cons, ht]
        rfl
      · rw [headOp?_cons, ht]
        rfl
    refine hlist.more ?_ (by simp)
    rw [statementsStep, bind_of_ok (accept_cons ht), if_pos rfl, bind_of_ok nextIs_apply,
      startsWith_cons, hu]
    rfl

theorem statementOver_cons {inner : Rule Statement} :
    statementOver inner (t :: ts) = (match t.kind with
      | .identifier => assignment
      | .keyword .read => readStatement
      | .keyword .write => writeStatement
      | .keyword .begin => blockOver inner
      | .keyword .«if» => conditionalOver inner
      | .keyword .«while» => loopOver inner
      | _ => throw (.expected "statement" t) : Rule Statement) (t :: ts) := rfl

theorem statementOver_reads {inner : Rule Statement} {m : ℕ} (hinner : ReadsStmts inner m) :
    ReadsStmts (statementOver inner) (m + 1) := by
  intro us s rest h hm hstops
  generalize hflag : startsWith (.keyword .«else») rest = beforeElse at h
  cases h with
  | @assign _ t a ts e ht ha he =>
    rw [List.cons_append, statementOver_cons, ht]
    change assignment _ = _
    rw [assignment, bind_of_ok (identifier_eq_ok.2 ⟨t, rfl, ht, rfl⟩), List.cons_append,
      bind_of_ok (expect_cons ha), bind_of_ok (expression_of_derivesExpr he hstops)]
    rfl
  | @read _ t l r ts targets ht hl htargets hr =>
    have hlist : commaSeparated (identifier "variable name") (ts ++ r :: rest) =
        .ok targets (r :: rest) :=
      commaSeparated_of_derivesList identifier_of_derivesName htargets
        (by rw [headOp?_cons, hr]; rfl) (by rw [startsWith_cons, hr]; rfl)
    rw [List.cons_append, statementOver_cons, ht]
    change readStatement _ = _
    rw [readStatement, bind_of_ok (expect_cons ht), List.cons_append, bind_of_ok (expect_cons hl),
      List.append_assoc, List.singleton_append, bind_of_ok hlist, bind_of_ok (expect_cons hr)]
    rfl
  | @write _ t l r ts values ht hl hvalues hr =>
    have hlist : commaSeparated expression (ts ++ r :: rest) = .ok values (r :: rest) :=
      commaSeparated_of_derivesList (fun us e rest he hs => expression_of_derivesExpr he hs) hvalues
        (by rw [headOp?_cons, hr]; rfl) (by rw [startsWith_cons, hr]; rfl)
    rw [List.cons_append, statementOver_cons, ht]
    change writeStatement _ = _
    rw [writeStatement, bind_of_ok (expect_cons ht), List.cons_append, bind_of_ok (expect_cons hl),
      List.append_assoc, List.singleton_append, bind_of_ok hlist, bind_of_ok (expect_cons hr)]
    rfl
  | @block _ t u ts last body ht hbody hlast hu =>
    have hlist : statementsOver inner (ts ++ (last ++ u :: rest)) = .ok body (u :: rest) :=
      statementsOver_of_derivesStmts hinner hbody (by simp at hm; omega) hlast hu
    rw [List.cons_append, statementOver_cons, ht]
    change blockOver inner _ = _
    rw [blockOver, bind_of_ok (expect_cons ht), List.append_assoc, List.append_assoc,
      List.singleton_append, bind_of_ok hlist, bind_of_ok (expect_cons hu)]
    rfl
  | @ifThen t u ts us e s ht he hu hs =>
    have hcondition : expression (ts ++ u :: (us ++ rest)) = .ok e (u :: (us ++ rest)) :=
      expression_of_derivesExpr he (by rw [headOp?_cons, hu]; rfl)
    have hconsequent : inner (us ++ rest) = .ok s rest :=
      hinner (hflag ▸ hs) (by simp at hm; omega) hstops
    rw [List.cons_append, statementOver_cons, ht]
    change conditionalOver inner _ = _
    rw [conditionalOver, bind_of_ok (expect_cons ht), List.append_assoc, List.cons_append,
      bind_of_ok hcondition, bind_of_ok (expect_cons hu), bind_of_ok hconsequent,
      bind_of_ok (accept_of_not_startsWith hflag)]
    rfl
  | @ifElse _ t u v ts us vs e s r ht he hu hs hv hr =>
    have hcondition : expression (ts ++ u :: (us ++ v :: (vs ++ rest))) =
        .ok e (u :: (us ++ v :: (vs ++ rest))) :=
      expression_of_derivesExpr he (by rw [headOp?_cons, hu]; rfl)
    have hconsequent : inner (us ++ v :: (vs ++ rest)) = .ok s (v :: (vs ++ rest)) := by
      refine hinner ?_ (by simp at hm; omega) (by rw [headOp?_cons, hv]; rfl)
      rw [startsWith_cons, hv, beq_self_eq_true]
      exact hs
    have halternative : inner (vs ++ rest) = .ok r rest :=
      hinner (hflag ▸ hr) (by simp at hm; omega) hstops
    rw [List.cons_append, statementOver_cons, ht]
    change conditionalOver inner _ = _
    rw [conditionalOver, bind_of_ok (expect_cons ht), List.append_assoc, List.cons_append,
      List.append_assoc, List.cons_append, bind_of_ok hcondition, bind_of_ok (expect_cons hu),
      bind_of_ok hconsequent, bind_of_ok (accept_cons hv)]
    exact bind_of_ok halternative _
  | @whileDo _ t u ts us e s ht he hu hs =>
    have hcondition : expression (ts ++ u :: (us ++ rest)) = .ok e (u :: (us ++ rest)) :=
      expression_of_derivesExpr he (by rw [headOp?_cons, hu]; rfl)
    have hbody : inner (us ++ rest) = .ok s rest :=
      hinner (hflag ▸ hs) (by simp at hm; omega) hstops
    rw [List.cons_append, statementOver_cons, ht]
    change loopOver inner _ = _
    rw [loopOver, bind_of_ok (expect_cons ht), List.append_assoc, List.cons_append,
      bind_of_ok hcondition, bind_of_ok (expect_cons hu), bind_of_ok hbody]
    rfl

theorem statementWithin_reads (size : ℕ) : ReadsStmts (statementWithin size) size := by
  induction size with
  | zero =>
    intro us s rest h hm _
    exact absurd (List.length_eq_zero_iff.1 (Nat.le_zero.1 hm)) h.ne_nil
  | succ size ih => exact statementOver_reads ih

theorem statement_reads (m : ℕ) : ReadsStmts statement m := by
  intro us s rest h _ hstops
  exact statementWithin_reads (us ++ rest).length h (by simp) hstops

theorem declaration_of_derivesDecl {d : Declaration} (h : DerivesDecl us d) :
    declaration (us ++ rest) = .ok d rest := by
  cases h with
  | @decl t c i s ts names hnames hc hi hs =>
    have htail : ts ++ [c, i, s] ++ rest = ts ++ c :: i :: s :: rest := by simp
    have hstops : headOp? (c :: i :: s :: rest) = none := by
      rw [headOp?_cons, hc]
      rfl
    have hcomma : startsWith (.mark .comma) (c :: i :: s :: rest) = false := by
      rw [startsWith_cons, hc]
      rfl
    obtain ⟨first, vs, hfirst, hfurther⟩ :=
      furtherItems_of_derivesList identifier_of_derivesName hnames hstops hcomma
    obtain ⟨t, hcons, -, rfl⟩ := identifier_eq_ok.1 hfirst
    rw [List.cons_append] at hcons hfirst
    obtain ⟨rfl, rfl⟩ := List.cons.inj hcons
    rw [declaration, List.cons_append, htail, bind_of_ok hfirst, bind_of_ok hfurther,
      bind_of_ok (expect_cons hc), bind_of_ok (typeName_eq_ok.2 ⟨i, rfl, hi, rfl⟩),
      bind_of_ok (expect_cons hs)]
    rfl

theorem startsWith_identifier_of_derivesDecl {d : Declaration} (h : DerivesDecl us d) :
    startsWith .identifier (us ++ rest) = true := by
  cases h with
  | decl hnames hc hi hs =>
    obtain ⟨t, ts, hcons, ht⟩ := hnames.exists_name
    obtain ⟨rfl, rfl⟩ := List.cons.inj hcons
    simp [ht]

theorem reaches_of_derivesDecls {ds : List Declaration} (h : DerivesDecls us ds) :
    Reaches declaration (fun d => [d]) declarationsStep (us ++ rest) ds rest := by
  induction h generalizing rest with
  | one hd => exact .one (declaration_of_derivesDecl hd)
  | @more ts us ds d hds hd ih =>
    rw [List.append_assoc]
    refine (@ih (us ++ rest)).more ?_ ?_
    · rw [declarationsStep, bind_of_ok nextIs_apply, startsWith_identifier_of_derivesDecl hd]
      exact bind_of_ok (declaration_of_derivesDecl hd) _
    · cases hd with
      | decl hnames hc hi hs =>
        simp
        omega

theorem declarationPart_of_derivesDeclarations {ds : List Declaration}
    (h : DerivesDeclarations us ds) (hb : t.kind = .keyword .begin) :
    declarationPart (us ++ t :: rest) = .ok ds (t :: rest) := by
  rw [declarationPart, bind_of_ok nextIs_apply]
  cases h with
  | absent =>
    rw [List.nil_append, startsWith_cons, hb]
    rfl
  | @present v ts ds hv hds =>
    have hstop : declarationsStep ds (t :: rest) = .ok none (t :: rest) := by
      rw [declarationsStep, bind_of_ok nextIs_apply, startsWith_cons, hb]
      rfl
    obtain ⟨d, vs, hd, hextend⟩ := (reaches_of_derivesDecls hds).stop hstop
    rw [List.cons_append, startsWith_cons, hv, beq_self_eq_true, if_pos rfl, declarations,
      bind_of_ok (expect_cons hv)]
    exact (bind_of_ok hd _).trans hextend

/-- A program is read back from its tokens at the end of a token list or before an end of input. -/
theorem program_of_derivesProgram {p : Program} (h : DerivesProgram us p)
    (hrest : ∀ u ∈ rest.head?, u.kind = .endOfInput) :
    program (us ++ rest) = .ok p rest := by
  cases h with
  | @program t n s b e d ds ts last declarations body ht hn hs hds hb hbody hlast he hd =>
    have htail : t :: n :: s :: (ds ++ b :: (ts ++ (last ++ [e, d]))) ++ rest =
        t :: n :: s :: (ds ++ b :: (ts ++ (last ++ e :: d :: rest))) := by simp
    have hstatements : statements (ts ++ (last ++ e :: d :: rest)) = .ok body (e :: d :: rest) :=
      statementsOver_of_derivesStmts (statement_reads ts.length) hbody le_rfl hlast he
    rw [htail, program_eq, bind_of_ok (expect_cons ht),
      bind_of_ok (identifier_eq_ok.2 ⟨n, rfl, hn, rfl⟩), bind_of_ok (expect_cons hs),
      bind_of_ok (declarationPart_of_derivesDeclarations hds hb), bind_of_ok (expect_cons hb),
      bind_of_ok hstatements, bind_of_ok (expect_cons he), bind_of_ok (expect_cons hd)]
    exact endOfProgram_eq_ok.2 ⟨rfl, rfl, hrest⟩

end TinyPascal.Rule

namespace TinyPascal

open Rule Grammar

/-- A token list is read as a program exactly if it derives the program, up to its end or to an end
of input, behind which nothing is looked at. -/
theorem parse_eq_ok_iff_derivesProgram (ts : List Token) (p : Program) :
    parse ts = .ok p ↔
      ∃ s r, ts = s ++ r ∧ (∀ t ∈ r.head?, t.kind = .endOfInput) ∧ DerivesProgram s p := by
  rw [parse_eq_ok]
  constructor
  · rintro ⟨rest, h⟩
    obtain ⟨us, rfl, hus, hrest⟩ := program_yields h
    exact ⟨us, rest, rfl, hrest, hus⟩
  · rintro ⟨s, r, rfl, hr, hs⟩
    exact ⟨r, program_of_derivesProgram hs hr⟩

end TinyPascal
