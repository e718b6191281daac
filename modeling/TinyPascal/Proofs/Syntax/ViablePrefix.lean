import TinyPascal.Proofs.Syntax.Lookahead

/-!
# Viable prefixes

Where a rule fails, what it has read before the token it objects to begins something that the
grammar derives. For each place where a rule can fail, a completion is given: the tokens that are
still missing, with a single name for every missing expression. So a syntax error is reported at the
first token with which no program can go on.
-/
namespace TinyPascal

/-- A token of the given kind, of which nothing else matters. -/
def Token.filler (kind : TokenKind) : Token := ⟨kind, "", .start⟩

namespace Grammar

variable {α β : Type} {us : List Token}

/-- The tokens begin something that `Derives` derives. -/
def Begins (Derives : List Token → α → Prop) (us : List Token) : Prop :=
  ∃ ws a, Derives (us ++ ws) a

/-- What begins a part of a whole begins the whole, once the tokens before the part are read. -/
theorem Begins.within {D : List Token → α → Prop} {E : List Token → β → Prop} (h : Begins D us)
    (before after : List Token)
    (hwhole : ∀ ts a, D ts a → ∃ b, E (before ++ (ts ++ after)) b) : Begins E (before ++ us) := by
  obtain ⟨ws, a, ha⟩ := h
  obtain ⟨b, hb⟩ := hwhole _ a ha
  exact ⟨ws ++ after, b, by simpa using hb⟩

/-- A name alone is an expression of every level. -/
theorem derivesExpr_filler (level : Level) :
    DerivesExpr level [.filler .identifier] (.var "" .start) := by
  have hfactor : DerivesExpr .factor [.filler .identifier] (.var "" .start) :=
    .name (t := .filler .identifier) rfl
  cases level with
  | factor => exact hfactor
  | term => exact .factor hfactor
  | arith => exact .term (.factor hfactor)
  | expr => exact .arith (.term (.factor hfactor))

def fillerStmt : List Token :=
  [.filler .identifier, .filler (.mark .assign), .filler .identifier]

theorem derivesStmt_filler :
    DerivesStmt false fillerStmt (.assign ⟨"", .start⟩ (.var "" .start) .start) :=
  .assign (t := .filler .identifier) rfl rfl (derivesExpr_filler .expr)

theorem derivesDecl_filler {t : Token} {ts : List Token} {names : List Identifier}
    (hnames : DerivesList DerivesName (t :: ts) names) :
    DerivesDecl (t :: (ts ++ [.filler (.mark .colon), .filler (.keyword .integer),
      .filler (.mark .semicolon)])) ⟨names, .integer, t.position⟩ :=
  .decl hnames rfl rfl rfl

theorem exists_derivesProgram {t n s : Token} {ds : List Token} {declarations : List Declaration}
    (ht : t.kind = .keyword .program) (hn : n.kind = .identifier) (hs : s.kind = .mark .semicolon)
    (hds : DerivesDeclarations ds declarations) :
    ∃ body p, DerivesProgram (t :: n :: s :: (ds ++ body)) p :=
  ⟨.filler (.keyword .begin) ::
      (fillerStmt ++ ([] ++ [.filler (.keyword .«end»), .filler (.mark .dot)])), _,
    .program ht hn hs hds rfl (.one derivesStmt_filler) .absent rfl rfl⟩

/-- What may stand before an `else` may also stand before another token. Only the last statement
within it stands before the same token. -/
theorem DerivesStmt.beforeOther {beforeElse : Bool} {ts : List Token} {s : Statement}
    (h : DerivesStmt beforeElse ts s) : DerivesStmt false ts s := by
  induction hlength : ts.length using Nat.strong_induction_on generalizing beforeElse ts s with
  | _ n ih =>
    cases h with
    | assign ht ha he => exact .assign ht ha he
    | read ht hl htargets hr => exact .read ht hl htargets hr
    | write ht hl hvalues hr => exact .write ht hl hvalues hr
    | block ht hbody hlast hu => exact .block ht hbody hlast hu
    | ifThen ht he hu hs => exact .ifThen ht he hu hs
    | ifElse ht he hu hs hv hr =>
      exact .ifElse ht he hu hs hv (ih _ (by simp at hlength; omega) hr rfl)
    | whileDo ht he hu hs => exact .whileDo ht he hu (ih _ (by simp at hlength; omega) hs rfl)

theorem DerivesStmts.beforeOther {beforeElse : Bool} {ts : List Token} {body : List Statement}
    (h : DerivesStmts beforeElse ts body) : DerivesStmts false ts body := by
  cases h with
  | one hs => exact .one hs.beforeOther
  | more hbody ht hs => exact .more hbody ht hs.beforeOther

end Grammar

namespace Rule

open Grammar

variable {α : Type} {t : Token} {ts rest : List Token} {n : ℕ}

/-- What a statement list has read can be closed by an `end`. -/
theorem DerivesBody.exists_trailing {us : List Token} {body : List Statement}
    (h : DerivesBody us rest body) :
    ∃ vs last, us = vs ++ last ∧ DerivesStmts false vs body ∧ TrailingSemicolon last := by
  obtain h | ⟨vs, t, rfl, hvs, ht, -⟩ := h
  · exact ⟨us, [], by simp, h.beforeOther, .absent⟩
  · exact ⟨vs, [t], rfl, hvs, .present ht⟩

/-- On lists of fewer than `n` tokens the rule is decided, and what stands before the token it
objects to begins something that `Derives` derives. -/
def DecidesBelow (n : ℕ) (x : Rule α) (Derives : List Token → α → Prop) : Prop :=
  ∀ ts, ts.length < n → Decides x (Begins Derives) ts

/-- A rule that recurs on shorter lists only. -/
theorem DecidesBelow.of_succ {x : Rule α} {Derives : List Token → α → Prop}
    (h : ∀ n, DecidesBelow n x Derives → DecidesBelow (n + 1) x Derives) (n : ℕ) :
    DecidesBelow n x Derives := by
  induction n with
  | zero => exact fun _ hts => absurd hts (Nat.not_lt_zero _)
  | succ n ih => exact h n ih

section

variable {inner : Rule Expr}

theorem primary_decides (hinner : DecidesBelow n inner (DerivesExpr .expr))
    (hyields : YieldsExpr inner .expr) :
    DecidesBelow (n + 1) (primary inner) (DerivesExpr .factor) := by
  intro ts hts
  have hnil : Begins (DerivesExpr .factor) [] := ⟨_, _, derivesExpr_filler .factor⟩
  cases ts with
  | nil => exact .exhausted hnil rfl
  | cons t ts =>
    rcases primary_cons t with ht | ⟨e, he⟩ | ⟨e, hfound, he⟩
    · refine Decides.cons ?_ fun us => primary_leftParen ht
      refine (hinner ts (Nat.lt_of_succ_lt_succ hts)).bind hyields (fun us hus => ?_)
        fun us e rest _ he => .expect_bind ?_ fun r rest _ _ => .pure _ _ _
      · exact hus.within [t] [.filler (.mark .rightParen)] fun ts e he => ⟨e, .parens ht he rfl⟩
      · exact ⟨[.filler (.mark .rightParen)], e, by simpa using DerivesExpr.parens ht he rfl⟩
    · exact .ok [t] ts e rfl fun more _ => he inner more
    · exact .objects [] ts t e rfl hfound hnil fun more =>
        ⟨more, List.suffix_cons t more, he inner more⟩

theorem signed_decides (hinner : DecidesBelow n inner (DerivesExpr .expr))
    (hyields : YieldsExpr inner .expr) :
    DecidesBelow (n + 1) (signed inner) (DerivesExpr .factor) := by
  intro ts hts
  induction ts with
  | nil =>
    exact (primary_decides hinner hyields [] hts).of_sameHead fun us hus =>
      signed_of_not_minus hus.startsWith_eq
  | cons t ts ih =>
    by_cases ht : t.kind = .mark .minus
    · refine Decides.cons ?_ fun us => signed_minus ht
      refine (ih (Nat.lt_of_succ_lt hts)).bind (signed_yields hyields) (fun us hus => ?_)
        fun us e rest _ _ => .pure _ _ _
      exact hus.within [t] [] fun ts e he => ⟨_, by simpa using DerivesExpr.minus ht he⟩
    · refine (primary_decides hinner hyields _ hts).of_sameHead fun us hus => ?_
      exact signed_of_not_minus (hus.startsWith_eq.trans (by simpa using ht))

/-- A chain of operators is decided if its operands are: what has been read of it is a chain itself,
and an operator can follow. -/
theorem leftChain_decides {accepts : BinaryOp → Bool} {operand : Rule Expr} {tight loose : Level}
    (hoperand : DecidesBelow n operand (DerivesExpr tight)) (hyields : YieldsExpr operand tight)
    (hone : ∀ {ts e}, DerivesExpr tight ts e → DerivesExpr loose ts e)
    (hmore : ∀ {t ts us op l r}, DerivesExpr loose ts l → accepts op = true →
      t.kind = .mark op.mark → DerivesExpr tight us r →
      DerivesExpr loose (ts ++ t :: us) (.binary op l r t.position)) :
    DecidesBelow n (leftChain accepts operand) (DerivesExpr loose) := by
  intro ts hts
  refine (hoperand ts hts).bind hyields (fun us hus => ?_) fun us e rest hrest he => ?_
  · exact hus.within [] [] fun ts e he => ⟨e, by simpa using hone he⟩
  · subst hrest
    refine Decides.extend (P := fun c _ l => DerivesExpr loose c l) (n := n)
      (chainStep_progresses accepts hyields.shrinks)
      (fun c ts l b us hl hstep => chainStep_keeps hyields hmore hl hstep)
      (fun c ts l hn hl => ?_) (by simp at hts; omega) (hone he)
    refine .operator_bind (fun t rest op hts haccepts ht => ?_) (.pure _ _ _)
    subst hts
    refine (hoperand rest (by simp at hn; omega)).bind hyields (fun us hus => ?_)
      fun us r rest _ _ => .pure _ _ _
    obtain ⟨ws, r, hr⟩ := hus
    exact ⟨ws, _, by simpa using hmore hl haccepts ht hr⟩

theorem multiplicativeOver_decides (hinner : DecidesBelow n inner (DerivesExpr .expr))
    (hyields : YieldsExpr inner .expr) :
    DecidesBelow (n + 1) (multiplicativeOver inner) (DerivesExpr .term) :=
  leftChain_decides (signed_decides hinner hyields) (signed_yields hyields) .factor .product

theorem additiveOver_decides (hinner : DecidesBelow n inner (DerivesExpr .expr))
    (hyields : YieldsExpr inner .expr) :
    DecidesBelow (n + 1) (additiveOver inner) (DerivesExpr .arith) :=
  leftChain_decides (multiplicativeOver_decides hinner hyields)
    (multiplicativeOver_yields hyields) .term .sum

theorem relationalOver_decides (hinner : DecidesBelow n inner (DerivesExpr .expr))
    (hyields : YieldsExpr inner .expr) :
    DecidesBelow (n + 1) (relationalOver inner) (DerivesExpr .expr) := by
  have hadditive := additiveOver_decides hinner hyields
  have hyields := additiveOver_yields hyields
  intro ts hts
  refine (hadditive ts hts).bind hyields (fun us hus => ?_) fun us l rest hrest hl => ?_
  · exact hus.within [] [] fun ts e he => ⟨e, by simpa using DerivesExpr.arith he⟩
  · refine .operator_bind (fun t rest' op hrest' haccepts ht => ?_) (.pure _ _ _)
    subst hrest hrest'
    refine (hadditive rest' (by simp at hts; omega)).bind hyields (fun us hus => ?_)
      fun us r rest _ _ => .pure _ _ _
    obtain ⟨ws, r, hr⟩ := hus
    exact ⟨ws, _, by simpa using DerivesExpr.comparison hl haccepts ht hr⟩

end

theorem expression_decides (ts : List Token) :
    Decides expression (Begins (DerivesExpr .expr)) ts := by
  refine DecidesBelow.of_succ (fun n h => ?_) (ts.length + 1) ts (Nat.lt_succ_self _)
  have hover := relationalOver_decides h expression_yields
  rwa [← expression_eq] at hover

theorem identifier_decides {what : String} (ts : List Token) :
    Decides (identifier what) (Begins DerivesName) ts := by
  rw [← bind_pure (identifier what)]
  exact .identifier_bind ⟨[.filler .identifier], _, .name rfl⟩ fun t rest _ _ => .pure _ _ _

section

variable {item : Rule α} {Item : List Token → α → Prop}

theorem furtherItems_decides (hitem : ∀ ts, Decides item (Begins Item) ts)
    (hyields : Yields item fun us _ a => Item us a) {c : List Token} {items : List α}
    (hitems : DerivesList Item c items) (ts : List Token) :
    Decides (furtherItems item items) (fun vs => Begins (DerivesList Item) (c ++ vs)) ts := by
  refine Decides.extend (P := fun c _ items => DerivesList Item c items) (n := ts.length + 1)
    (itemStep_progresses hyields.shrinks)
    (fun c ts items b us hitems hstep => itemStep_keeps hyields hitems hstep)
    (fun c ts items _ hitems => ?_) (Nat.lt_succ_self _) hitems
  refine .accept_bind (fun t rest _ ht => ?_) fun _ => .pure _ _ _
  refine (hitem rest).bind hyields (fun us hus => ?_) fun us a rest _ _ => .pure _ _ _
  obtain ⟨ws, a, ha⟩ := hus
  exact ⟨ws, _, by simpa using DerivesList.more hitems ht ha⟩

theorem commaSeparated_decides (hitem : ∀ ts, Decides item (Begins Item) ts)
    (hyields : Yields item fun us _ a => Item us a) (ts : List Token) :
    Decides (commaSeparated item) (Begins (DerivesList Item)) ts := by
  refine (hitem ts).bind hyields (fun us hus => ?_)
    fun us a rest _ ha => furtherItems_decides hitem hyields (.one ha) rest
  exact hus.within [] [] fun ts a ha => ⟨[a], by simpa using DerivesList.one ha⟩

end

theorem begins_stmt_nil : Begins (DerivesStmt false) [] := ⟨_, _, derivesStmt_filler⟩

theorem assignment_decides (ts : List Token) :
    Decides assignment (Begins (DerivesStmt false)) ts := by
  refine .identifier_bind begins_stmt_nil fun t rest _ ht => .expect_bind ?_ fun a rest _ ha => ?_
  · exact ⟨[.filler (.mark .assign), .filler .identifier], _,
      .assign ht rfl (derivesExpr_filler .expr)⟩
  · refine (expression_decides rest).bind expression_yields (fun us hus => ?_)
      fun us e rest _ _ => .pure _ _ _
    exact hus.within [t, a] [] fun ts e he => ⟨_, by simpa using DerivesStmt.assign ht ha he⟩

theorem parenthesized_decides {item : Rule α} {Item : List Token → α → Prop}
    (hitem : ∀ ts, Decides item (Begins Item) ts) (hyields : Yields item fun us _ a => Item us a)
    {word : Keyword} {node : List α → Position → Statement} {start opening closing : String}
    (hnode : ∀ {t l r : Token} {ts : List Token} {items : List α}, t.kind = .keyword word →
      l.kind = .mark .leftParen → DerivesList Item ts items → r.kind = .mark .rightParen →
      DerivesStmt false (t :: l :: (ts ++ [r])) (node items t.position))
    {us : List Token} {a : α} (ha : Item us a) (ts : List Token) :
    Decides (do
      let first ← expect (.keyword word) start
      let _ ← expect (.mark .leftParen) opening
      let items ← commaSeparated item
      let _ ← expect (.mark .rightParen) closing
      return node items first.position) (Begins (DerivesStmt false)) ts := by
  refine .expect_bind begins_stmt_nil fun t rest _ ht => .expect_bind ?_ fun l rest _ hl => ?_
  · exact ⟨.filler (.mark .leftParen) :: (us ++ [.filler (.mark .rightParen)]), _,
      hnode ht rfl (.one ha) rfl⟩
  · refine (commaSeparated_decides hitem hyields rest).bind (commaSeparated_yields hyields)
      (fun us hus => ?_) fun us items rest _ hitems =>
        .expect_bind ?_ fun r rest _ _ => .pure _ _ _
    · exact hus.within [t, l] [.filler (.mark .rightParen)] fun ts items hitems =>
        ⟨_, hnode ht hl hitems rfl⟩
    · exact ⟨[.filler (.mark .rightParen)], _, by simpa using hnode ht hl hitems rfl⟩

theorem readStatement_decides (ts : List Token) :
    Decides readStatement (Begins (DerivesStmt false)) ts :=
  parenthesized_decides identifier_decides (identifier_yields _) .read
    (.name (t := .filler .identifier) rfl) ts

theorem writeStatement_decides (ts : List Token) :
    Decides writeStatement (Begins (DerivesStmt false)) ts :=
  parenthesized_decides expression_decides expression_yields .write (derivesExpr_filler .expr) ts

section

variable {inner : Rule Statement}

theorem statementsOver_decides (hinner : DecidesBelow n inner (DerivesStmt false))
    (hyields : YieldsStmt inner) : DecidesBelow n (statementsOver inner) (DerivesStmts false) := by
  intro ts hts
  refine (hinner ts hts).bind hyields (fun us hus => ?_) fun us s rest hrest hs => ?_
  · exact hus.within [] [] fun ts s hs => ⟨[s], by simpa using DerivesStmts.one hs⟩
  · subst hrest
    refine Decides.extend (P := DerivesBody) (n := n) (statementsStep_progresses hyields.shrinks)
      (fun c ts body b us hbody hstep => statementsStep_keeps hyields hbody hstep)
      (fun c ts body hn hbody => ?_) (by simp at hts; omega) (.inl (.one hs))
    refine .accept_bind (fun t rest hts ht => .nextIs_bind ?_) fun _ => .pure _ _ _
    subst hts
    cases startsWith (.keyword .«end») rest with
    | true => exact .pure _ _ _
    | false =>
      refine (hinner rest (by simp at hn; omega)).bind hyields (fun us hus => ?_)
        fun us s rest _ _ => .pure _ _ _
      obtain ⟨ws, s, hs⟩ := hus
      exact ⟨ws, _, by simpa using DerivesStmts.more (hbody.beforeSemicolon ht) ht hs⟩

theorem blockOver_decides (hinner : DecidesBelow n inner (DerivesStmt false))
    (hyields : YieldsStmt inner) :
    DecidesBelow (n + 1) (blockOver inner) (DerivesStmt false) := by
  intro ts hts
  refine .expect_bind begins_stmt_nil fun t rest hrest ht => ?_
  subst hrest
  refine (statementsOver_decides hinner hyields rest (Nat.lt_of_succ_lt_succ hts)).bind
    (statementsOver_yields hyields) (fun us hus => ?_)
    fun us body rest _ hbody => .expect_bind ?_ fun u rest _ _ => .pure _ _ _
  · exact hus.within [t] [.filler (.keyword .«end»)] fun ts body hbody =>
      ⟨_, by simpa using DerivesStmt.block ht hbody .absent rfl⟩
  · obtain ⟨vs, last, rfl, hvs, hlast⟩ := hbody.exists_trailing
    exact ⟨[.filler (.keyword .«end»)], _, by simpa using DerivesStmt.block ht hvs hlast rfl⟩

theorem conditionalOver_decides (hinner : DecidesBelow n inner (DerivesStmt false))
    (hyields : YieldsStmt inner) :
    DecidesBelow (n + 1) (conditionalOver inner) (DerivesStmt false) := by
  intro ts hts
  refine .expect_bind begins_stmt_nil fun t rest hrest ht => ?_
  subst hrest
  have hthen (ts : List Token) (e : Expr) (he : DerivesExpr .expr ts e) :
      DerivesStmt false (t :: (ts ++ .filler (.keyword .«then») :: fillerStmt)) _ :=
    .ifThen ht he rfl derivesStmt_filler
  refine (expression_decides rest).bind expression_yields (fun us hus => ?_)
    fun us e rest hrest he => .expect_bind ?_ fun u rest' hrest' hu => ?_
  · exact hus.within [t] _ fun ts e he => ⟨_, hthen ts e he⟩
  · exact ⟨_, _, by simpa using hthen us e he⟩
  · subst hrest hrest'
    refine (hinner rest' (by simp at hts; omega)).bind hyields (fun us hus => ?_)
      fun us' s rest hrest hs => .accept_bind (fun v rest' hrest' hv => ?_) fun _ => .pure _ _ _
    · obtain ⟨ws, s, hs⟩ := hus
      exact ⟨ws, _, by simpa using DerivesStmt.ifThen ht he hu hs⟩
    · subst hrest hrest'
      refine (hinner rest' (by simp at hts; omega)).bind hyields (fun us hus => ?_)
        fun us r rest _ _ => .pure _ _ _
      rw [startsWith_cons, hv, beq_self_eq_true] at hs
      obtain ⟨ws, r, hr⟩ := hus
      exact ⟨ws, _, by simpa using DerivesStmt.ifElse ht he hu hs hv hr⟩

theorem loopOver_decides (hinner : DecidesBelow n inner (DerivesStmt false))
    (hyields : YieldsStmt inner) :
    DecidesBelow (n + 1) (loopOver inner) (DerivesStmt false) := by
  intro ts hts
  refine .expect_bind begins_stmt_nil fun t rest hrest ht => ?_
  subst hrest
  have hdo (ts : List Token) (e : Expr) (he : DerivesExpr .expr ts e) :
      DerivesStmt false (t :: (ts ++ .filler (.keyword .«do») :: fillerStmt)) _ :=
    .whileDo ht he rfl derivesStmt_filler
  refine (expression_decides rest).bind expression_yields (fun us hus => ?_)
    fun us e rest hrest he => .expect_bind ?_ fun u rest' hrest' hu => ?_
  · exact hus.within [t] _ fun ts e he => ⟨_, hdo ts e he⟩
  · exact ⟨_, _, by simpa using hdo us e he⟩
  · subst hrest hrest'
    refine (hinner rest' (by simp at hts; omega)).bind hyields (fun us hus => ?_)
      fun us' s rest _ _ => .pure _ _ _
    obtain ⟨ws, s, hs⟩ := hus
    exact ⟨ws, _, by simpa using DerivesStmt.whileDo ht he hu hs⟩

theorem statementOver_decides (hinner : DecidesBelow n inner (DerivesStmt false))
    (hyields : YieldsStmt inner) :
    DecidesBelow (n + 1) (statementOver inner) (DerivesStmt false) := by
  intro ts hts
  cases ts with
  | nil => exact .exhausted begins_stmt_nil rfl
  | cons t ts =>
    have hselects {rule : Rule Statement}
        (hrule : Decides rule (Begins (DerivesStmt false)) (t :: ts))
        (heq : ∀ u us, u.kind = t.kind → statementOver inner (u :: us) = rule (u :: us)) :
        Decides (statementOver inner) (Begins (DerivesStmt false)) (t :: ts) :=
      hrule.of_sameHead fun us hus => by
        obtain ⟨u, vs, rfl, hu⟩ := hus.exists_cons
        exact heq u vs hu
    have hrefuses (h : ∀ us, statementOver inner (t :: us) =
        .error (.expected "statement" t) (t :: us)) :
        Decides (statementOver inner) (Begins (DerivesStmt false)) (t :: ts) :=
      .objects [] ts t _ rfl rfl begins_stmt_nil fun more => ⟨t :: more, List.suffix_rfl, h more⟩
    cases hk : t.kind with
    | identifier =>
      exact hselects (assignment_decides _) fun u us hu => by rw [statementOver_cons, hu, hk]
    | keyword word =>
      cases word with
      | read =>
        exact hselects (readStatement_decides _) fun u us hu => by rw [statementOver_cons, hu, hk]
      | write =>
        exact hselects (writeStatement_decides _) fun u us hu => by rw [statementOver_cons, hu, hk]
      | begin =>
        exact hselects (blockOver_decides hinner hyields _ hts) fun u us hu => by
          rw [statementOver_cons, hu, hk]
      | «if» =>
        exact hselects (conditionalOver_decides hinner hyields _ hts) fun u us hu => by
          rw [statementOver_cons, hu, hk]
      | «while» =>
        exact hselects (loopOver_decides hinner hyields _ hts) fun u us hu => by
          rw [statementOver_cons, hu, hk]
      | _ =>
        refine hrefuses fun us => ?_
        rw [statementOver_cons, hk]
        rfl
    | _ =>
      refine hrefuses fun us => ?_
      rw [statementOver_cons, hk]
      rfl

end

theorem statement_decidesBelow : ∀ n, DecidesBelow n statement (DerivesStmt false) := by
  refine DecidesBelow.of_succ fun n h => ?_
  have hover := statementOver_decides h statement_yields
  rwa [← statement_eq] at hover

theorem statements_decides (ts : List Token) :
    Decides statements (Begins (DerivesStmts false)) ts :=
  statementsOver_decides (statement_decidesBelow _) statement_yields ts (Nat.lt_succ_self _)

theorem typeName_decides {V : List Token → Prop} (hnil : V []) (ts : List Token) :
    Decides typeName V ts := by
  cases ts with
  | nil => exact .exhausted hnil rfl
  | cons t ts =>
    by_cases ht : t.kind = .keyword .integer
    · exact .ok [t] ts .integer rfl fun more _ => typeName_eq_ok.2 ⟨t, rfl, ht, rfl⟩
    · refine .objects [] ts t (.expected "type 'integer'" t) rfl rfl hnil fun more => ?_
      refine ⟨more, List.suffix_cons t more, ?_⟩
      rw [List.nil_append, typeName, bind_of_ok next_cons, if_neg ht]
      rfl

theorem typeName_yields :
    Yields typeName fun us _ _ => ∃ i : Token, us = [i] ∧ i.kind = .keyword .integer := by
  intro ts type rest h
  obtain ⟨i, rfl, hi, -⟩ := typeName_eq_ok.1 h
  exact ⟨[i], rfl, i, rfl, hi⟩

theorem declaration_decides (ts : List Token) : Decides declaration (Begins DerivesDecl) ts := by
  refine .identifier_bind ⟨_, _, derivesDecl_filler (.one (.name (t := .filler .identifier) rfl))⟩
    fun t rest _ ht => ?_
  refine (furtherItems_decides identifier_decides (identifier_yields _) (.one (.name ht)) rest).bind
    (furtherItems_yields (identifier_yields _) (.one (.name ht))) (fun us hus => ?_)
    fun us names rest _ hnames => .expect_bind ?_ fun c rest _ hc => ?_
  · obtain ⟨ws, names, hnames⟩ := hus
    exact ⟨_, _, by simpa using derivesDecl_filler hnames⟩
  · exact ⟨_, _, by simpa using derivesDecl_filler hnames⟩
  · refine (typeName_decides ?_ rest).bind typeName_yields (fun us hus => hus)
      fun us type rest _ hi => .expect_bind ?_ fun s rest _ _ => .pure _ _ _
    · exact ⟨[.filler (.keyword .integer), .filler (.mark .semicolon)], _,
        by simpa using DerivesDecl.decl hnames hc rfl rfl⟩
    · obtain ⟨i, rfl, hi⟩ := hi
      exact ⟨[.filler (.mark .semicolon)], _, by simpa using DerivesDecl.decl hnames hc hi rfl⟩

theorem declarations_decides (ts : List Token) :
    Decides declarations (Begins DerivesDeclarations) ts := by
  refine .expect_bind ?_ fun t rest _ ht => ?_
  · exact ⟨.filler (.keyword .var) :: _, _, .present rfl
      (.one (derivesDecl_filler (.one (.name (t := .filler .identifier) rfl))))⟩
  · refine (declaration_decides rest).bind declaration_yields (fun us hus => ?_)
      fun us d rest _ hd => ?_
    · exact hus.within [t] [] fun ts d hd =>
        ⟨_, by simpa using DerivesDeclarations.present ht (.one hd)⟩
    · have hloop : Decides (Rule.extend [d] declarationsStep)
          (fun vs => Begins DerivesDecls (us ++ vs)) rest := by
        refine Decides.extend (P := fun c _ ds => DerivesDecls c ds) (n := rest.length + 1)
          declarationsStep_progresses
          (fun c ts ds b us hds hstep => declarationsStep_keeps hds hstep)
          (fun c ts ds _ hds => .nextIs_bind ?_) (Nat.lt_succ_self _) (.one hd)
        cases startsWith .identifier ts with
        | false => exact .pure _ _ _
        | true =>
          refine (declaration_decides ts).bind declaration_yields (fun us hus => ?_)
            fun us d rest _ _ => .pure _ _ _
          obtain ⟨ws, d, hd⟩ := hus
          exact ⟨ws, _, by simpa using DerivesDecls.more hds hd⟩
      refine hloop.mono fun vs hvs => ?_
      obtain ⟨ws, ds, hds⟩ := hvs
      exact ⟨ws, ds, by simpa using DerivesDeclarations.present ht hds⟩

theorem declarationPart_decides (ts : List Token) :
    Decides declarationPart (Begins DerivesDeclarations) ts := by
  refine .nextIs_bind ?_
  cases startsWith (.keyword .var) ts with
  | true => exact declarations_decides ts
  | false => exact .pure _ _ _

theorem endOfProgram_decides {V : List Token → Prop} (hnil : V []) (p : Program)
    (ts : List Token) : Decides (endOfProgram p) V ts := by
  by_cases h : ∀ kind ∈ ts.head?.map Token.kind, kind = .endOfInput
  · refine .ok [] ts p rfl fun more hmore => endOfProgram_eq_ok.2 ⟨rfl, rfl, fun u hu => ?_⟩
    rw [SameHead] at hmore
    rw [hmore] at h
    exact h u.kind (Option.mem_map_of_mem _ hu)
  · cases ts with
    | nil => simp at h
    | cons t ts =>
      have ht : t.kind ≠ .endOfInput := by simpa using h
      refine .objects [] ts t (.trailingTokens t) rfl rfl hnil fun more => ?_
      refine ⟨t :: more, List.suffix_rfl, ?_⟩
      change (if t.kind = .endOfInput then _ else _ : Rule Program) (t :: more) = _
      rw [if_neg ht]
      rfl

/-- What a program has read before the token it objects to begins a program. -/
theorem program_decides (ts : List Token) : Decides program (Begins DerivesProgram) ts := by
  rw [program_eq]
  refine .expect_bind ?_ fun t rest _ ht => .identifier_bind ?_ fun n rest _ hn =>
    .expect_bind ?_ fun s rest _ hs => ?_
  · obtain ⟨body, p, hp⟩ := exists_derivesProgram (t := .filler (.keyword .program))
      (n := .filler .identifier) (s := .filler (.mark .semicolon)) rfl rfl rfl .absent
    exact ⟨_, p, hp⟩
  · obtain ⟨body, p, hp⟩ := exists_derivesProgram (n := .filler .identifier)
      (s := .filler (.mark .semicolon)) ht rfl rfl .absent
    exact ⟨_, p, hp⟩
  · obtain ⟨body, p, hp⟩ :=
      exists_derivesProgram (s := .filler (.mark .semicolon)) ht hn rfl .absent
    exact ⟨_, p, hp⟩
  refine (declarationPart_decides rest).bind declarationPart_yields (fun us hus => ?_)
    fun ds declared rest _ hds => .expect_bind ?_ fun b rest _ hb => ?_
  · obtain ⟨ws, ds, hds⟩ := hus
    obtain ⟨body, p, hp⟩ := exists_derivesProgram ht hn hs hds
    exact ⟨ws ++ body, p, by simpa using hp⟩
  · obtain ⟨body, p, hp⟩ := exists_derivesProgram ht hn hs hds
    exact ⟨body, p, by simpa using hp⟩
  refine (statements_decides rest).bind (statementsOver_yields statement_yields) (fun us hus => ?_)
    fun us body rest _ hbody => ?_
  · obtain ⟨ws, body, hbody⟩ := hus
    exact ⟨ws ++ [.filler (.keyword .«end»), .filler (.mark .dot)], _,
      by simpa using DerivesProgram.program ht hn hs hds hb hbody .absent rfl rfl⟩
  obtain ⟨vs, last, rfl, hvs, hlast⟩ := hbody.exists_trailing
  refine .expect_bind ?_ fun e rest _ he => .expect_bind ?_ fun d rest _ hd => ?_
  · exact ⟨[.filler (.keyword .«end»), .filler (.mark .dot)], _,
      by simpa using DerivesProgram.program ht hn hs hds hb hvs hlast rfl rfl⟩
  · exact ⟨[.filler (.mark .dot)], _,
      by simpa using DerivesProgram.program ht hn hs hds hb hvs hlast he rfl⟩
  · refine endOfProgram_decides ?_ _ rest
    exact ⟨[], _, by simpa using DerivesProgram.program ht hn hs hds hb hvs hlast he hd⟩

end Rule

open Rule Grammar

/-- The tokens can be continued to a list that is read as a program. -/
def IsViable (ts : List Token) : Prop :=
  ∃ rest p, parse (ts ++ rest) = .ok p

theorem isViable_of_begins {ts : List Token} (h : Begins DerivesProgram ts) : IsViable ts := by
  obtain ⟨rest, p, hp⟩ := h
  have hread : Rule.program (ts ++ rest ++ []) = .ok p [] := program_of_derivesProgram hp (by simp)
  rw [List.append_nil] at hread
  exact ⟨rest, p, parse_eq_ok.2 ⟨[], hread⟩⟩

theorem parse_eq_error {ts : List Token} {e : SyntaxError} :
    parse ts = .error e ↔ ∃ left, Rule.program ts = .error e left := by
  rw [parse, EStateM.run]
  cases Rule.program ts with
  | ok p left => simp
  | error e left => simp

/-- A token that is objected to is the first one with which no program goes on. -/
theorem exists_index_of_parse_eq_error {ts : List Token} {e : SyntaxError}
    (h : parse ts = .error e) :
    (∃ t k, e.token? = some t ∧ ts[k]? = some t ∧ IsViable (ts.take k) ∧
      ¬ IsViable (ts.take (k + 1))) ∨ e = .endOfInput ∧ IsViable ts := by
  obtain ⟨left, hleft⟩ := parse_eq_error.1 h
  cases program_decides ts with
  | ok us rest p hts hp =>
    rw [hts, hp rest rfl] at hleft
    cases hleft
  | objects us vs t found hts hfound hviable hmore =>
    subst hts
    obtain ⟨_, -, hvs⟩ := hmore vs
    rw [hvs] at hleft
    cases hleft
    refine .inl ⟨t, us.length, hfound, by simp, ?_, ?_⟩
    · rw [List.take_left]
      exact isViable_of_begins hviable
    · rintro ⟨rest, p, hp⟩
      obtain ⟨_, hok⟩ := parse_eq_ok.1 hp
      obtain ⟨_, -, herror⟩ := hmore rest
      have htake : (us ++ t :: vs).take (us.length + 1) ++ rest = us ++ t :: rest := by
        simp [List.take_append]
      rw [htake, herror] at hok
      cases hok
  | exhausted hviable hexhausted =>
    rw [hexhausted] at hleft
    cases hleft
    exact .inr ⟨rfl, isViable_of_begins hviable⟩

/-- A syntax error is reported at the earliest possible token: the tokens before the one that is
found can be continued to a program, and together with it they cannot. Where no token is found, the
whole list can be continued. -/
theorem syntaxError_at_first_dead_token {ts : List Token} {e : SyntaxError}
    (h : parse ts = .error e) :
    match e with
    | .expected _ t | .literalTooLarge t | .trailingTokens t =>
      ∃ k, ts[k]? = some t ∧ e.position = t.position ∧ IsViable (ts.take k) ∧
        ¬ IsViable (ts.take (k + 1))
    | .endOfInput => IsViable ts := by
  rcases exists_index_of_parse_eq_error h with ⟨t, k, ht, hk, hbefore, hdead⟩ | ⟨rfl, hviable⟩
  · cases e with
    | expected _ _ | literalTooLarge _ | trailingTokens _ =>
      cases ht
      exact ⟨k, hk, rfl, hbefore, hdead⟩
    | endOfInput => cases ht
  · exact hviable

def openParenthesis : List Token :=
  [.filler (.keyword .program), .filler .identifier, .filler (.mark .semicolon),
    .filler (.keyword .begin), .filler .identifier, .filler (.mark .assign),
    .filler (.mark .leftParen), .filler .identifier]

def strayDot : List Token :=
  openParenthesis ++ [.filler (.mark .dot), .filler (.mark .rightParen)]

theorem syntaxError_at_first_dead_token_parentheses :
    parse openParenthesis = .error .endOfInput ∧ IsViable openParenthesis ∧
    parse strayDot = .error (.expected "')' after expression" (.filler (.mark .dot))) ∧
    ∃ k, strayDot[k]? = some (.filler (.mark .dot)) ∧ IsViable (strayDot.take k) ∧
      ¬ IsViable (strayDot.take (k + 1)) := by
  have hend : parse openParenthesis = .error .endOfInput := rfl
  have hdot : parse strayDot =
      .error (.expected "')' after expression" (.filler (.mark .dot))) := rfl
  obtain ⟨k, hk, -, hbefore, hdead⟩ := syntaxError_at_first_dead_token hdot
  exact ⟨hend, syntaxError_at_first_dead_token hend, hdot, k, hk, hbefore, hdead⟩

end TinyPascal
