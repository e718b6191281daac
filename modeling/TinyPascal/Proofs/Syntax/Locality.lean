import TinyPascal.Proofs.Syntax.ViablePrefix

/-!
# Rules are local

A rule that succeeds has consumed at least one token, and what it returns depends on the tokens it
has consumed and on the kind of the next one only: before any other rest that begins alike it does
the same and leaves that rest. A rule that fails leaves an end of its list. So no rule skips a
token, looks past the next one or puts a token back.
-/
namespace TinyPascal.Rule

open Grammar

variable {α : Type} {x : Rule α}

/-- One token of lookahead decides what the rule does: a success consumes some tokens, and repeats
before every rest that begins alike. A failure leaves an end of the list. -/
structure IsLocal (x : Rule α) : Prop where
  consumed {ts rest : List Token} {a : α} (h : x ts = .ok a rest) :
    ∃ c, c ≠ [] ∧ ts = c ++ rest ∧ ∀ more, SameHead rest more → x (c ++ more) = .ok a more
  unconsumed {ts left : List Token} {e : SyntaxError} (h : x ts = .error e left) : left <:+ ts

/-- A rule is local if the tokens it has seen decide what it does, and if it returns nothing without
reading a token. -/
theorem isLocal_of_decides {V : List Token → Prop} {P : List Token → List Token → α → Prop}
    (hdecides : ∀ ts, Decides x V ts) (hyields : Yields x P)
    (hne : ∀ us rest a, P us rest a → us ≠ []) : IsLocal x where
  consumed {ts rest a} h := by
    cases hdecides ts with
    | ok us more b hts hb =>
      have hsame := h.symm.trans (hts ▸ hb more rfl)
      obtain ⟨rfl, rfl⟩ := EStateM.Result.ok.inj hsame
      obtain ⟨vs, hvs, hP⟩ := hyields h
      obtain rfl := List.append_cancel_right (hts.symm.trans hvs)
      exact ⟨us, hne us rest a hP, hts, hb⟩
    | objects us vs t e hts _ _ he =>
      obtain ⟨left, -, hfails⟩ := he vs
      subst hts
      cases h.symm.trans hfails
    | exhausted _ hfails => cases h.symm.trans hfails
  unconsumed {ts left e} h := by
    cases hdecides ts with
    | ok us more b hts hb =>
      subst hts
      cases h.symm.trans (hb more rfl)
    | objects us vs t e' hts _ _ he =>
      obtain ⟨left', hleft, hfails⟩ := he vs
      subst hts
      obtain ⟨-, rfl⟩ := EStateM.Result.error.inj (h.symm.trans hfails)
      exact hleft.trans (List.suffix_append us (t :: vs))
    | exhausted _ hfails =>
      obtain ⟨-, rfl⟩ := EStateM.Result.error.inj (h.symm.trans hfails)
      exact List.nil_suffix

theorem isLocal_of_derivesExpr {x : Rule Expr} {level : Level}
    (hdecides : ∀ n, DecidesBelow (n + 1) x (DerivesExpr level)) (hyields : YieldsExpr x level) :
    IsLocal x :=
  isLocal_of_decides (fun ts => hdecides ts.length ts (Nat.lt_succ_self _)) hyields
    fun _ _ _ he => he.ne_nil

theorem isLocal_of_derivesStmt {x : Rule Statement}
    (hdecides : ∀ n, DecidesBelow (n + 1) x (DerivesStmt false)) (hyields : YieldsStmt x) :
    IsLocal x :=
  isLocal_of_decides (fun ts => hdecides ts.length ts (Nat.lt_succ_self _)) hyields
    fun _ _ _ hs => hs.ne_nil

theorem expression_decidesBelow (n : ℕ) : DecidesBelow n expression (DerivesExpr .expr) :=
  fun ts _ => expression_decides ts

/-- A statement list holds a statement, whether or not a semicolon was read after it. -/
theorem DerivesBody.ne_nil {us rest : List Token} {body : List Statement}
    (h : DerivesBody us rest body) : us ≠ [] := by
  obtain h | ⟨vs, t, rfl, -⟩ := h
  · cases h with
    | one hs => exact hs.ne_nil
    | more _ _ _ => simp
  · simp

/-- Each rule for statements and expressions consumes tokens where it succeeds, does the same before
all rests that begin alike, and leaves an end of its list where it fails. -/
theorem rules_are_local :
    IsLocal statement ∧ IsLocal statements ∧ IsLocal block ∧ IsLocal expression ∧
      IsLocal relational ∧ IsLocal additive ∧ IsLocal multiplicative := by
  refine ⟨?_, ?_, ?_, ?_, ?_, ?_, ?_⟩
  · exact isLocal_of_derivesStmt (fun n => statement_decidesBelow (n + 1)) statement_yields
  · exact isLocal_of_decides statements_decides (statementsOver_yields statement_yields)
      fun _ _ _ hbody => hbody.ne_nil
  · exact isLocal_of_derivesStmt
      (fun n => blockOver_decides (statement_decidesBelow n) statement_yields)
      (blockOver_yields statement_yields)
  · exact isLocal_of_derivesExpr (fun n => expression_decidesBelow (n + 1)) expression_yields
  · exact isLocal_of_derivesExpr
      (fun n => relationalOver_decides (expression_decidesBelow n) expression_yields)
      (relationalOver_yields expression_yields)
  · exact isLocal_of_derivesExpr
      (fun n => additiveOver_decides (expression_decidesBelow n) expression_yields)
      (additiveOver_yields expression_yields)
  · exact isLocal_of_derivesExpr
      (fun n => multiplicativeOver_decides (expression_decidesBelow n) expression_yields)
      (multiplicativeOver_yields expression_yields)

end TinyPascal.Rule
