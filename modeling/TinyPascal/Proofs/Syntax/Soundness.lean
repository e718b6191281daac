import TinyPascal.Proofs.Syntax.Grammar
import TinyPascal.Proofs.Syntax.Rule
import TinyPascal.Syntax.Program

/-!
# Rules read what the grammar derives

Where a rule succeeds, the tokens it has consumed derive the node it returns. The rules for what
stands inside parentheses and inside statements are arguments of the other rules, so each rule is
sound if they are, and the bounded rules are sound by induction on the bound.
-/
namespace TinyPascal.Rule

open Grammar

variable {α : Type} {ts rest : List Token}

/-- The rule returns expressions of the given level. -/
abbrev YieldsExpr (rule : Rule Expr) (level : Level) : Prop :=
  Yields rule fun us _ e => DerivesExpr level us e

/-- The rule returns statements, and takes an `else` that follows for the nearest `if`. -/
abbrev YieldsStmt (rule : Rule Statement) : Prop :=
  Yields rule fun us rest s => DerivesStmt (startsWith (.keyword .«else») rest) us s

theorem primary_yields {inner : Rule Expr} (hinner : YieldsExpr inner .expr) :
    YieldsExpr (primary inner) .factor := by
  intro ts e rest h
  rw [primary, bind_eq_ok] at h
  obtain ⟨t, us, ht, h⟩ := h
  rw [next_eq_ok] at ht
  subst ht
  cases hk : t.kind with
  | integerLiteral =>
    simp only [hk] at h
    cases hvalue : Integer.ofText? t.lexeme with
    | some value =>
      simp only [hvalue, pure_eq_ok] at h
      obtain ⟨rfl, rfl⟩ := h
      exact ⟨[t], rfl, .int hk hvalue⟩
    | none => simp [hvalue] at h
  | stringLiteral =>
    simp only [hk, pure_eq_ok] at h
    obtain ⟨rfl, rfl⟩ := h
    exact ⟨[t], rfl, .string hk⟩
  | identifier =>
    simp only [hk, pure_eq_ok] at h
    obtain ⟨rfl, rfl⟩ := h
    exact ⟨[t], rfl, .name hk⟩
  | mark m =>
    by_cases hm : m = .leftParen
    · subst hm
      simp only [hk, bind_eq_ok, expect_eq_ok, pure_eq_ok] at h
      obtain ⟨node, vs, hnode, r, ws, ⟨rfl, hr⟩, rfl, rfl⟩ := h
      obtain ⟨ts, rfl, hts⟩ := hinner hnode
      exact ⟨t :: (ts ++ [r]), by simp, .parens hk hts hr⟩
    · cases m <;> first | exact absurd rfl hm | simp [hk] at h
  | keyword word => simp [hk] at h
  | endOfInput => simp [hk] at h

theorem derivesExpr_signs {signs : List Token} {e : Expr}
    (hsigns : ∀ t ∈ signs, t.kind = .mark .minus) (he : DerivesExpr .factor ts e) :
    DerivesExpr .factor (signs ++ ts)
      (signs.foldr (fun sign node => .neg node sign.position) e) := by
  induction signs with
  | nil => exact he
  | cons t signs ih =>
    exact .minus (hsigns t (by simp)) (ih fun u hu => hsigns u (by simp [hu]))

theorem signed_yields {inner : Rule Expr} (hinner : YieldsExpr inner .expr) :
    YieldsExpr (signed inner) .factor := by
  intro ts e rest h
  rw [signed, bind_eq_ok] at h
  obtain ⟨signs, us, hsigns, h⟩ := h
  simp only [bind_eq_ok, pure_eq_ok] at h
  obtain ⟨operand, vs, hoperand, rfl, rfl⟩ := h
  rw [takeWhile_apply] at hsigns
  cases hsigns
  obtain ⟨vs, hvs, hderives⟩ := primary_yields hinner hoperand
  refine ⟨_ ++ vs, ?_, derivesExpr_signs ?_ hderives⟩
  · rw [List.append_assoc, ← hvs, List.takeWhile_append_dropWhile]
  · intro t ht
    simpa using List.mem_takeWhile_imp ht

def chainStep (accepts : BinaryOp → Bool) (operand : Rule Expr) (left : Expr) :
    Rule (Option Expr) := do
  match ← operator accepts with
  | some (op, position) => return some (.binary op left (← operand) position)
  | none => return none

theorem chainStep_cases {accepts : BinaryOp → Bool} {operand : Rule Expr} {l : Expr}
    {next : Option Expr} (h : chainStep accepts operand l ts = .ok next rest) :
    (next = none ∧ ts = rest) ∨ ∃ t us op r, ts = t :: us ∧ accepts op = true ∧
      t.kind = .mark op.mark ∧ operand us = .ok r rest ∧
        next = some (.binary op l r t.position) := by
  rw [chainStep, bind_eq_ok] at h
  obtain ⟨result, us, hop, h⟩ := h
  obtain ⟨rfl, rfl⟩ | ⟨t, op, rfl, rfl, haccepts, ht⟩ := operator_cases hop
  · obtain ⟨rfl, rfl⟩ := pure_eq_ok.1 h
    exact .inl ⟨rfl, rfl⟩
  · simp only [bind_eq_ok, pure_eq_ok] at h
    obtain ⟨r, vs, hr, rfl, rfl⟩ := h
    exact .inr ⟨t, us, op, r, rfl, haccepts, ht, hr, rfl⟩

theorem chainStep_keeps {accepts : BinaryOp → Bool} {operand : Rule Expr} {tight loose : Level}
    (hoperand : YieldsExpr operand tight)
    (hmore : ∀ {t ts us op l r}, DerivesExpr loose ts l → accepts op = true →
      t.kind = .mark op.mark → DerivesExpr tight us r →
      DerivesExpr loose (ts ++ t :: us) (.binary op l r t.position))
    {c : List Token} {l b : Expr} (hl : DerivesExpr loose c l)
    (h : chainStep accepts operand l ts = .ok (some b) rest) :
    ∃ vs, ts = vs ++ rest ∧ DerivesExpr loose (c ++ vs) b := by
  obtain ⟨hb, -⟩ | ⟨t, us, op, r, rfl, haccepts, ht, hr, hb⟩ := chainStep_cases h
  · cases hb
  · obtain rfl := Option.some.inj hb
    obtain ⟨vs, rfl, hvs⟩ := hoperand hr
    exact ⟨t :: vs, rfl, hmore hl haccepts ht hvs⟩

/-- Operands with operators between them derive what their grouping to the left derives. -/
theorem leftChain_yields {accepts : BinaryOp → Bool} {operand : Rule Expr} {tight loose : Level}
    (hoperand : YieldsExpr operand tight)
    (hone : ∀ {ts e}, DerivesExpr tight ts e → DerivesExpr loose ts e)
    (hmore : ∀ {t ts us op l r}, DerivesExpr loose ts l → accepts op = true →
      t.kind = .mark op.mark → DerivesExpr tight us r →
      DerivesExpr loose (ts ++ t :: us) (.binary op l r t.position)) :
    YieldsExpr (leftChain accepts operand) loose := by
  refine Yields.extend (f := id) (fun ts e rest h => ?_)
    (fun c ts l b us hl hstep => chainStep_keeps hoperand hmore hl hstep) ?_
  · obtain ⟨us, rfl, hus⟩ := hoperand h
    exact ⟨us, rfl, hone hus⟩
  · intro ts l us hstep
    obtain ⟨-, rfl⟩ | ⟨t, vs, op, r, -, -, -, -, hb⟩ := chainStep_cases hstep
    · rfl
    · cases hb

theorem multiplicativeOver_yields {inner : Rule Expr} (hinner : YieldsExpr inner .expr) :
    YieldsExpr (multiplicativeOver inner) .term :=
  leftChain_yields (signed_yields hinner) .factor .product

theorem additiveOver_yields {inner : Rule Expr} (hinner : YieldsExpr inner .expr) :
    YieldsExpr (additiveOver inner) .arith :=
  leftChain_yields (multiplicativeOver_yields hinner) .term .sum

theorem relationalOver_yields {inner : Rule Expr} (hinner : YieldsExpr inner .expr) :
    YieldsExpr (relationalOver inner) .expr := by
  intro ts e rest h
  rw [relationalOver, bind_eq_ok] at h
  obtain ⟨left, us, hleft, h⟩ := h
  obtain ⟨vs, rfl, hvs⟩ := additiveOver_yields hinner hleft
  rw [bind_eq_ok] at h
  obtain ⟨result, xs, hop, h⟩ := h
  obtain ⟨rfl, rfl⟩ | ⟨t, op, rfl, rfl, haccepts, ht⟩ := operator_cases hop
  · obtain ⟨rfl, rfl⟩ := pure_eq_ok.1 h
    exact ⟨vs, rfl, .arith hvs⟩
  · simp only [bind_eq_ok, pure_eq_ok] at h
    obtain ⟨right, ys, hright, rfl, rfl⟩ := h
    obtain ⟨zs, rfl, hzs⟩ := additiveOver_yields hinner hright
    exact ⟨vs ++ t :: zs, by simp, .comparison hvs haccepts ht hzs⟩

theorem expressionWithin_yields (size : ℕ) : YieldsExpr (expressionWithin size) .expr := by
  induction size with
  | zero =>
    intro ts e rest h
    cases h
  | succ size ih => exact relationalOver_yields ih

theorem expression_yields : YieldsExpr expression .expr := by
  intro ts e rest h
  exact expressionWithin_yields ts.length h

theorem identifier_eq_ok {what : String} {i : Identifier} :
    identifier what ts = .ok i rest ↔
      ∃ t : Token, ts = t :: rest ∧ t.kind = .identifier ∧ i = ⟨t.lexeme, t.position⟩ := by
  simp only [identifier, bind_eq_ok, expect_eq_ok, pure_eq_ok]
  constructor
  · rintro ⟨t, us, ⟨rfl, ht⟩, rfl, rfl⟩
    exact ⟨t, rfl, ht, rfl⟩
  · rintro ⟨t, rfl, ht, rfl⟩
    exact ⟨t, rest, ⟨rfl, ht⟩, rfl, rfl⟩

theorem identifier_yields (what : String) :
    Yields (identifier what) fun us _ i => DerivesName us i := by
  intro ts i rest h
  obtain ⟨t, rfl, ht, rfl⟩ := identifier_eq_ok.1 h
  exact ⟨[t], rfl, .name ht⟩

def itemStep (item : Rule α) (items : List α) : Rule (Option (List α)) := do
  if ← accept (.mark .comma) then
    return some (items ++ [← item])
  else
    return none

theorem itemStep_cases {item : Rule α} {items : List α} {next : Option (List α)}
    (h : itemStep item items ts = .ok next rest) :
    (next = none ∧ ts = rest) ∨ ∃ t us a, ts = t :: us ∧ t.kind = .mark .comma ∧
      item us = .ok a rest ∧ next = some (items ++ [a]) := by
  rw [itemStep, bind_eq_ok] at h
  obtain ⟨accepted, us, hcomma, h⟩ := h
  obtain ⟨rfl, t, rfl, ht⟩ | ⟨rfl, rfl, -⟩ := accept_cases hcomma
  · simp only [if_true, bind_eq_ok, pure_eq_ok] at h
    obtain ⟨a, vs, ha, rfl, rfl⟩ := h
    exact .inr ⟨t, us, a, rfl, ht, ha, rfl⟩
  · obtain ⟨rfl, rfl⟩ := pure_eq_ok.1 h
    exact .inl ⟨rfl, rfl⟩

theorem itemStep_keeps {item : Rule α} {Item : List Token → α → Prop}
    (hitem : Yields item fun us _ a => Item us a) {c : List Token} {items b : List α}
    (hitems : DerivesList Item c items) (h : itemStep item items ts = .ok (some b) rest) :
    ∃ vs, ts = vs ++ rest ∧ DerivesList Item (c ++ vs) b := by
  obtain ⟨hb, -⟩ | ⟨t, us, a, rfl, ht, ha, hb⟩ := itemStep_cases h
  · cases hb
  · obtain rfl := Option.some.inj hb
    obtain ⟨vs, rfl, hvs⟩ := hitem ha
    exact ⟨t :: vs, rfl, .more hitems ht hvs⟩

theorem furtherItems_yields {item : Rule α} {Item : List Token → α → Prop}
    (hitem : Yields item fun us _ a => Item us a) {c : List Token} {items : List α}
    (hitems : DerivesList Item c items) :
    Yields (furtherItems item items) fun us _ b => DerivesList Item (c ++ us) b := by
  intro ts b rest h
  refine iterate_yields (P := fun c _ items => DerivesList Item c items)
    (fun c ts items b us hitems hstep => itemStep_keeps hitem hitems hstep) ?_ hitems h
  intro ts items us hstep
  obtain ⟨-, rfl⟩ | ⟨t, vs, a, -, -, -, hb⟩ := itemStep_cases hstep
  · rfl
  · cases hb

theorem commaSeparated_yields {item : Rule α} {Item : List Token → α → Prop}
    (hitem : Yields item fun us _ a => Item us a) :
    Yields (commaSeparated item) fun us _ items => DerivesList Item us items := by
  intro ts items rest h
  rw [commaSeparated, bind_eq_ok] at h
  obtain ⟨a, us, ha, h⟩ := h
  obtain ⟨vs, rfl, hvs⟩ := hitem ha
  obtain ⟨ws, rfl, hws⟩ := furtherItems_yields hitem (.one hvs) h
  exact ⟨vs ++ ws, by simp, hws⟩

theorem assignment_yields : YieldsStmt assignment := by
  intro ts s rest h
  simp only [assignment, bind_eq_ok, identifier_eq_ok, expect_eq_ok, pure_eq_ok] at h
  obtain ⟨i, us, ⟨t, rfl, ht, rfl⟩, a, vs, ⟨rfl, ha⟩, e, ws, he, rfl, rfl⟩ := h
  obtain ⟨xs, rfl, hxs⟩ := expression_yields he
  exact ⟨t :: a :: xs, rfl, .assign ht ha hxs⟩

theorem readStatement_yields : YieldsStmt readStatement := by
  intro ts s rest h
  simp only [readStatement, bind_eq_ok, expect_eq_ok, pure_eq_ok] at h
  obtain ⟨t, us, ⟨rfl, ht⟩, l, vs, ⟨rfl, hl⟩, targets, ws, htargets, r, xs, ⟨rfl, hr⟩, rfl,
    rfl⟩ := h
  obtain ⟨ys, rfl, hys⟩ := commaSeparated_yields (identifier_yields _) htargets
  exact ⟨t :: l :: (ys ++ [r]), by simp, .read ht hl hys hr⟩

theorem writeStatement_yields : YieldsStmt writeStatement := by
  intro ts s rest h
  simp only [writeStatement, bind_eq_ok, expect_eq_ok, pure_eq_ok] at h
  obtain ⟨t, us, ⟨rfl, ht⟩, l, vs, ⟨rfl, hl⟩, values, ws, hvalues, r, xs, ⟨rfl, hr⟩, rfl, rfl⟩ := h
  obtain ⟨ys, rfl, hys⟩ := commaSeparated_yields expression_yields hvalues
  exact ⟨t :: l :: (ys ++ [r]), by simp, .write ht hl hys hr⟩

/-- What the rule for statement lists has read by the time its loop is left: a statement list, and
perhaps a semicolon that an `end` follows. -/
def DerivesBody (us rest : List Token) (body : List Statement) : Prop :=
  DerivesStmts (startsWith (.keyword .«else») rest) us body ∨
    ∃ vs t, us = vs ++ [t] ∧ DerivesStmts false vs body ∧ t.kind = .mark .semicolon ∧
      startsWith (.keyword .«end») rest = true

/-- Before a semicolon, a statement list is complete and no `else` follows it. -/
theorem DerivesBody.beforeSemicolon {c : List Token} {t : Token} {body : List Statement}
    (h : DerivesBody c (t :: ts) body) (ht : t.kind = .mark .semicolon) :
    DerivesStmts false c body := by
  obtain h | ⟨vs, u, -, -, -, hend⟩ := h
  · rw [startsWith_cons, ht] at h
    exact h
  · rw [startsWith_cons, ht] at hend
    cases hend

/-- Before an `end`, all that is read is the statement list and perhaps a semicolon. -/
theorem DerivesBody.beforeEnd {c : List Token} {t : Token} {body : List Statement}
    (h : DerivesBody c (t :: ts) body) (ht : t.kind = .keyword .«end») :
    ∃ us last, c = us ++ last ∧ DerivesStmts false us body ∧ TrailingSemicolon last := by
  obtain h | ⟨us, u, rfl, hus, hu, -⟩ := h
  · rw [startsWith_cons, ht] at h
    exact ⟨c, [], by simp, h, .absent⟩
  · exact ⟨us, [u], rfl, hus, .present hu⟩

def statementsStep (statement : Rule Statement) (body : List Statement) :
    Rule (Option (List Statement)) := do
  if ← accept (.mark .semicolon) then
    if ← nextIs (.keyword .«end») then
      return some body
    else
      return some (body ++ [← statement])
  else
    return none

/-- A round declines, or reads a semicolon and then one more statement, unless an `end` follows. -/
theorem statementsStep_cases {statement : Rule Statement} {body : List Statement}
    {next : Option (List Statement)} (h : statementsStep statement body ts = .ok next rest) :
    (next = none ∧ ts = rest) ∨ ∃ t us, ts = t :: us ∧ t.kind = .mark .semicolon ∧
      ((startsWith (.keyword .«end») rest = true ∧ us = rest ∧ next = some body) ∨
        ∃ s, statement us = .ok s rest ∧ next = some (body ++ [s])) := by
  rw [statementsStep, bind_eq_ok] at h
  obtain ⟨accepted, us, hsemicolon, h⟩ := h
  obtain ⟨rfl, t, rfl, ht⟩ | ⟨rfl, rfl, -⟩ := accept_cases hsemicolon
  · rw [if_pos rfl, bind_of_ok nextIs_apply] at h
    cases hend : startsWith (.keyword .«end») us with
    | true =>
      simp only [hend, if_true, pure_eq_ok] at h
      obtain ⟨rfl, rfl⟩ := h
      exact .inr ⟨t, us, rfl, ht, .inl ⟨hend, rfl, rfl⟩⟩
    | false =>
      simp only [hend, Bool.false_eq_true, if_false, bind_eq_ok, pure_eq_ok] at h
      obtain ⟨s, vs, hs, rfl, rfl⟩ := h
      exact .inr ⟨t, us, rfl, ht, .inr ⟨s, hs, rfl⟩⟩
  · obtain ⟨rfl, rfl⟩ := pure_eq_ok.1 h
    exact .inl ⟨rfl, rfl⟩

theorem statementsStep_keeps {statement : Rule Statement} (hstatement : YieldsStmt statement)
    {c : List Token} {body b : List Statement} (hbody : DerivesBody c ts body)
    (h : statementsStep statement body ts = .ok (some b) rest) :
    ∃ vs, ts = vs ++ rest ∧ DerivesBody (c ++ vs) rest b := by
  obtain ⟨hb, -⟩ | ⟨t, us, rfl, ht, ⟨hend, rfl, hb⟩ | ⟨s, hs, hb⟩⟩ := statementsStep_cases h
  · cases hb
  · obtain rfl := Option.some.inj hb
    exact ⟨[t], rfl, .inr ⟨c, t, rfl, hbody.beforeSemicolon ht, ht, hend⟩⟩
  · obtain rfl := Option.some.inj hb
    obtain ⟨vs, rfl, hvs⟩ := hstatement hs
    exact ⟨t :: vs, rfl, .inl (.more (hbody.beforeSemicolon ht) ht hvs)⟩

theorem statementsOver_yields {statement : Rule Statement} (hstatement : YieldsStmt statement) :
    Yields (statementsOver statement) DerivesBody := by
  refine Yields.extend (f := fun s => [s]) (fun ts s rest h => ?_)
    (fun c ts body b us hbody hstep => statementsStep_keeps hstatement hbody hstep) ?_
  · obtain ⟨us, rfl, hus⟩ := hstatement h
    exact ⟨us, rfl, .inl (.one hus)⟩
  · intro ts body us hstep
    obtain ⟨-, rfl⟩ | ⟨t, vs, -, -, ⟨-, -, hb⟩ | ⟨s, -, hb⟩⟩ := statementsStep_cases hstep
    · rfl
    · cases hb
    · cases hb

theorem blockOver_yields {statement : Rule Statement} (hstatement : YieldsStmt statement) :
    YieldsStmt (blockOver statement) := by
  intro ts s rest h
  simp only [blockOver, bind_eq_ok, expect_eq_ok, pure_eq_ok] at h
  obtain ⟨t, us, ⟨rfl, ht⟩, body, vs, hbody, u, ws, ⟨rfl, hu⟩, rfl, rfl⟩ := h
  obtain ⟨xs, rfl, hxs⟩ := statementsOver_yields hstatement hbody
  obtain ⟨ys, last, rfl, hys, hlast⟩ := hxs.beforeEnd hu
  exact ⟨t :: (ys ++ (last ++ [u])), by simp, .block ht hys hlast hu⟩

theorem conditionalOver_yields {statement : Rule Statement} (hstatement : YieldsStmt statement) :
    YieldsStmt (conditionalOver statement) := by
  intro ts s rest h
  simp only [conditionalOver, bind_eq_ok, expect_eq_ok] at h
  obtain ⟨t, us, ⟨rfl, ht⟩, e, vs, he, u, ws, ⟨rfl, hu⟩, consequent, xs, hconsequent, accepted, ys,
    helse, h⟩ := h
  obtain ⟨es, rfl, hes⟩ := expression_yields he
  obtain ⟨cs, rfl, hcs⟩ := hstatement hconsequent
  obtain ⟨rfl, v, rfl, hv⟩ | ⟨rfl, rfl, hnot⟩ := accept_cases helse
  · simp only [if_true, bind_eq_ok, pure_eq_ok] at h
    obtain ⟨alternative, zs, halternative, rfl, rfl⟩ := h
    obtain ⟨as, rfl, has⟩ := hstatement halternative
    rw [startsWith_cons, hv, beq_self_eq_true] at hcs
    exact ⟨t :: (es ++ u :: (cs ++ v :: as)), by simp, .ifElse ht hes hu hcs hv has⟩
  · simp only [Bool.false_eq_true, if_false, pure_eq_ok] at h
    obtain ⟨rfl, rfl⟩ := h
    rw [hnot] at hcs
    refine ⟨t :: (es ++ u :: cs), by simp, ?_⟩
    simp only [hnot]
    exact .ifThen ht hes hu hcs

theorem loopOver_yields {statement : Rule Statement} (hstatement : YieldsStmt statement) :
    YieldsStmt (loopOver statement) := by
  intro ts s rest h
  simp only [loopOver, bind_eq_ok, expect_eq_ok, pure_eq_ok] at h
  obtain ⟨t, us, ⟨rfl, ht⟩, e, vs, he, u, ws, ⟨rfl, hu⟩, body, xs, hbody, rfl, rfl⟩ := h
  obtain ⟨es, rfl, hes⟩ := expression_yields he
  obtain ⟨bs, rfl, hbs⟩ := hstatement hbody
  exact ⟨t :: (es ++ u :: bs), by simp, .whileDo ht hes hu hbs⟩

theorem statementOver_yields {inner : Rule Statement} (hinner : YieldsStmt inner) :
    YieldsStmt (statementOver inner) := by
  intro ts s rest h
  cases ts with
  | nil => exact absurd h throw_ne_ok
  | cons t ts =>
    rw [statementOver, bind_eq_ok] at h
    obtain ⟨seen, us, hseen, h⟩ := h
    cases hseen
    cases hk : t.kind with
    | identifier => exact assignment_yields (by simpa only [hk] using h)
    | keyword word =>
      cases word with
      | read => exact readStatement_yields (by simpa only [hk] using h)
      | write => exact writeStatement_yields (by simpa only [hk] using h)
      | begin => exact blockOver_yields hinner (by simpa only [hk] using h)
      | «if» => exact conditionalOver_yields hinner (by simpa only [hk] using h)
      | «while» => exact loopOver_yields hinner (by simpa only [hk] using h)
      | _ => simp [hk] at h
    | _ => simp [hk] at h

theorem statementWithin_yields (size : ℕ) : YieldsStmt (statementWithin size) := by
  induction size with
  | zero =>
    intro ts s rest h
    cases h
  | succ size ih => exact statementOver_yields ih

theorem statement_yields : YieldsStmt statement := by
  intro ts s rest h
  exact statementWithin_yields ts.length h

theorem typeName_eq_ok {type : Ty} :
    typeName ts = .ok type rest ↔
      ∃ t, ts = t :: rest ∧ t.kind = .keyword .integer ∧ type = .integer := by
  simp only [typeName, bind_eq_ok, next_eq_ok]
  constructor
  · rintro ⟨t, us, rfl, h⟩
    split at h
    · next ht =>
      obtain ⟨rfl, rfl⟩ := pure_eq_ok.1 h
      exact ⟨t, rfl, ht, rfl⟩
    · exact absurd h throw_ne_ok
  · rintro ⟨t, rfl, ht, rfl⟩
    exact ⟨t, rest, rfl, by simp [ht]⟩

theorem declaration_yields : Yields declaration fun us _ d => DerivesDecl us d := by
  intro ts d rest h
  simp only [declaration, bind_eq_ok, expect_eq_ok, typeName_eq_ok, pure_eq_ok] at h
  obtain ⟨first, us, hfirst, names, vs, hnames, c, ws, ⟨rfl, hc⟩, type, xs, ⟨i, rfl, hi, rfl⟩, s,
    ys, ⟨rfl, hs⟩, rfl, rfl⟩ := h
  obtain ⟨zs, hzs, hderives⟩ :=
    commaSeparated_yields (identifier_yields _) (bind_eq_ok.2 ⟨first, us, hfirst, hnames⟩)
  obtain ⟨t, rfl, ht, rfl⟩ := identifier_eq_ok.1 hfirst
  obtain ⟨z, zs, rfl, -⟩ := hderives.exists_name
  obtain ⟨rfl, rfl⟩ := List.cons.inj hzs
  exact ⟨t :: (zs ++ [c, i, s]), by simp, .decl hderives hc hi hs⟩

def declarationsStep (done : List Declaration) : Rule (Option (List Declaration)) := do
  if ← nextIs .identifier then
    return some (done ++ [← declaration])
  else
    return none

theorem declarationsStep_cases {done : List Declaration} {next : Option (List Declaration)}
    (h : declarationsStep done ts = .ok next rest) :
    (next = none ∧ ts = rest) ∨ ∃ d, declaration ts = .ok d rest ∧ next = some (done ++ [d]) := by
  rw [declarationsStep, bind_of_ok nextIs_apply] at h
  split at h
  · simp only [bind_eq_ok, pure_eq_ok] at h
    obtain ⟨d, us, hd, rfl, rfl⟩ := h
    exact .inr ⟨d, hd, rfl⟩
  · obtain ⟨rfl, rfl⟩ := pure_eq_ok.1 h
    exact .inl ⟨rfl, rfl⟩

theorem declarationsStep_keeps {c : List Token} {done b : List Declaration}
    (hdone : DerivesDecls c done) (h : declarationsStep done ts = .ok (some b) rest) :
    ∃ vs, ts = vs ++ rest ∧ DerivesDecls (c ++ vs) b := by
  obtain ⟨hb, -⟩ | ⟨d, hd, hb⟩ := declarationsStep_cases h
  · cases hb
  · obtain rfl := Option.some.inj hb
    obtain ⟨vs, rfl, hvs⟩ := declaration_yields hd
    exact ⟨vs, rfl, .more hdone hvs⟩

theorem declarations_yields : Yields declarations fun us _ ds => DerivesDeclarations us ds := by
  have hloop : Yields (do Rule.extend [← declaration] declarationsStep)
      fun us _ ds => DerivesDecls us ds := by
    refine Yields.extend (f := fun d => [d]) (fun ts d rest h => ?_)
      (fun c ts done b us hdone hstep => declarationsStep_keeps hdone hstep) ?_
    · obtain ⟨us, rfl, hus⟩ := declaration_yields h
      exact ⟨us, rfl, .one hus⟩
    · intro ts done us hstep
      obtain ⟨-, rfl⟩ | ⟨d, -, hb⟩ := declarationsStep_cases hstep
      · rfl
      · cases hb
  intro ts ds rest h
  rw [declarations, bind_eq_ok] at h
  obtain ⟨t, us, hvar, h⟩ := h
  obtain ⟨rfl, ht⟩ := expect_eq_ok.1 hvar
  obtain ⟨vs, rfl, hvs⟩ := hloop h
  exact ⟨t :: vs, rfl, .present ht hvs⟩

def declarationPart : Rule (List Declaration) := do
  if ← nextIs (.keyword .var) then declarations else return []

def endOfProgram (p : Program) : Rule Program := do
  match ← get with
  | token :: _ => if token.kind = .endOfInput then return p else throw (.trailingTokens token)
  | [] => return p

theorem program_eq : program = (do
    let first ← expect (.keyword .program) "'program'"
    let name ← identifier "program name"
    let _ ← expect (.mark .semicolon) "';' after program name"
    let declared ← declarationPart
    let _ ← expect (.keyword .begin) "'begin'"
    let body ← statements
    let _ ← expect (.keyword .«end») "'end'"
    let _ ← expect (.mark .dot) "'.' at end of program"
    endOfProgram ⟨name, declared, body, first.position⟩) := by
  simp only [declarationPart, bind_assoc]
  refine bind_congr fun first => bind_congr fun name => bind_congr fun _ => bind_congr fun b => ?_
  cases b <;> rfl

theorem declarationPart_yields :
    Yields declarationPart fun us _ ds => DerivesDeclarations us ds := by
  intro ts ds rest h
  rw [declarationPart, bind_of_ok nextIs_apply] at h
  split at h
  · exact declarations_yields h
  · obtain ⟨rfl, rfl⟩ := pure_eq_ok.1 h
    exact ⟨[], rfl, .absent⟩

theorem endOfProgram_eq_ok {p q : Program} :
    endOfProgram p ts = .ok q rest ↔
      p = q ∧ ts = rest ∧ ∀ t ∈ rest.head?, t.kind = .endOfInput := by
  cases ts with
  | nil =>
    change (pure p : Rule Program) [] = _ ↔ _
    rw [pure_eq_ok]
    constructor
    · rintro ⟨rfl, rfl⟩
      simp
    · rintro ⟨rfl, rfl, -⟩
      exact ⟨rfl, rfl⟩
  | cons t ts =>
    change (if t.kind = .endOfInput then pure p else throw _ : Rule Program) (t :: ts) = _ ↔ _
    by_cases ht : t.kind = .endOfInput
    · rw [if_pos ht, pure_eq_ok]
      constructor
      · rintro ⟨rfl, rfl⟩
        simp [ht]
      · rintro ⟨rfl, rfl, -⟩
        exact ⟨rfl, rfl⟩
    · rw [if_neg ht]
      constructor
      · intro h
        exact absurd h throw_ne_ok
      · rintro ⟨-, rfl, h⟩
        exact absurd (h t rfl) ht

/-- A program that is read ends the token list, or an end of input follows it. -/
theorem program_yields :
    Yields program fun us rest p =>
      DerivesProgram us p ∧ ∀ t ∈ rest.head?, t.kind = .endOfInput := by
  intro ts p rest h
  simp only [program_eq, bind_eq_ok, expect_eq_ok, identifier_eq_ok, endOfProgram_eq_ok] at h
  obtain ⟨t, us, ⟨rfl, ht⟩, name, vs, ⟨n, rfl, hn, rfl⟩, s, ws, ⟨rfl, hs⟩, declared, xs, hdeclared,
    b, ys, ⟨rfl, hb⟩, body, zs, hbody, e, es, ⟨rfl, he⟩, d, fs, ⟨rfl, hd⟩, rfl, rfl, hrest⟩ := h
  obtain ⟨ds, rfl, hds⟩ := declarationPart_yields hdeclared
  obtain ⟨xs, rfl, hxs⟩ := statementsOver_yields statement_yields hbody
  obtain ⟨ts, last, rfl, hts, hlast⟩ := hxs.beforeEnd he
  exact ⟨t :: n :: s :: (ds ++ b :: (ts ++ (last ++ [e, d]))), by simp,
    .program ht hn hs hds hb hts hlast he hd, hrest⟩

end TinyPascal.Rule

namespace TinyPascal

open Rule Grammar

theorem parse_eq_ok {ts : List Token} {p : Program} :
    parse ts = .ok p ↔ ∃ rest, Rule.program ts = .ok p rest := by
  rw [parse, EStateM.run]
  cases Rule.program ts with
  | ok q rest => simp
  | error e rest => simp

end TinyPascal
