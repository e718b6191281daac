import TinyPascal.Proofs.Syntax.Completeness

/-!
# The recursion of the rules

Loops and nested rules run with a bound that is taken from the length of the token list. The bounds
are never reached: on a list that is short enough, a rule does the same with any bound. So a loop is
its first round and then the loop again, and the rules for expressions and statements satisfy the
equations that would define them without bounds.
-/
namespace TinyPascal

def SyntaxError.token? : SyntaxError → Option Token
  | expected _ t | literalTooLarge t | trailingTokens t => some t
  | endOfInput => none

namespace Rule

open Grammar

variable {α β : Type} {t : Token} {ts us rest : List Token} {kind : TokenKind} {what : String}

/-- The rule leaves no more tokens than it is given. -/
def Shrinks (x : Rule α) : Prop :=
  ∀ ⦃ts a rest⦄, x ts = .ok a rest → rest.length ≤ ts.length

theorem Yields.shrinks {x : Rule α} {P : List Token → List Token → α → Prop} (h : Yields x P) :
    Shrinks x := by
  intro ts a rest hx
  obtain ⟨us, rfl, -⟩ := h hx
  simp

theorem Shrinks.expect : Shrinks (expect kind what) := by
  intro ts t rest h
  obtain ⟨rfl, -⟩ := expect_eq_ok.1 h
  simp

theorem Shrinks.accept : Shrinks (accept kind) := by
  intro ts accepted rest h
  obtain ⟨-, t, rfl, -⟩ | ⟨-, rfl, -⟩ := accept_cases h
  · simp
  · exact le_rfl

theorem Shrinks.nextIs : Shrinks (nextIs kind) := by
  intro ts found rest h
  rw [nextIs_apply] at h
  cases h
  exact le_rfl

theorem Shrinks.operator {accepts : BinaryOp → Bool} : Shrinks (operator accepts) := by
  intro ts result rest h
  obtain ⟨-, rfl⟩ | ⟨t, op, -, rfl, -, -⟩ := operator_cases h
  · exact le_rfl
  · simp

/-- A step of a loop declines at the end of the list, and consumes a token unless it declines. -/
structure Progresses (step : α → Rule (Option α)) : Prop where
  declines : ∀ a, step a [] = .ok none []
  le_of_none : ∀ a ts us, step a ts = .ok none us → us.length ≤ ts.length
  lt_of_some : ∀ a ts b us, step a ts = .ok (some b) us → us.length < ts.length

namespace Progresses

variable {step : α → Rule (Option α)}

theorem shrinks (h : Progresses step) (a : α) : Shrinks (step a) := by
  intro ts next us hstep
  cases next with
  | none => exact h.le_of_none a ts us hstep
  | some b => exact (h.lt_of_some a ts b us hstep).le

/-- Rounds beyond the number of tokens do not matter. -/
theorem iterate_eq (h : Progresses step) {k l : ℕ} (hk : ts.length ≤ k) (hl : ts.length ≤ l)
    (a : α) : iterate step k a ts = iterate step l a ts := by
  induction k generalizing l a ts with
  | zero =>
    obtain rfl := List.length_eq_zero_iff.1 (Nat.le_zero.1 hk)
    rw [iterate_none (h.declines a), iterate_none (h.declines a)]
  | succ k ih =>
    cases l with
    | zero =>
      obtain rfl := List.length_eq_zero_iff.1 (Nat.le_zero.1 hl)
      rw [iterate_none (h.declines a), iterate_none (h.declines a)]
    | succ l =>
      rw [iterate, iterate]
      cases hstep : step a ts with
      | error e us => rw [bind_of_error hstep, bind_of_error hstep]
      | ok next us =>
        rw [bind_of_ok hstep, bind_of_ok hstep]
        cases next with
        | none => rfl
        | some b =>
          have hlt := h.lt_of_some a ts b us hstep
          exact ih (by omega) (by omega) b

/-- A loop is its first round, and then the loop again. -/
theorem extend_eq (h : Progresses step) (a : α) : extend a step = (do
    match ← step a with
    | some b => extend b step
    | none => return a) := by
  funext ts
  change iterate step ts.length a ts = _
  rw [h.iterate_eq le_rfl (Nat.le_succ _) a, iterate]
  cases hstep : step a ts with
  | error e us => rw [bind_of_error hstep, bind_of_error hstep]
  | ok next us =>
    rw [bind_of_ok hstep, bind_of_ok hstep]
    cases next with
    | none => rfl
    | some b => exact h.iterate_eq (h.lt_of_some a ts b us hstep).le le_rfl b

end Progresses

theorem chainStep_progresses (accepts : BinaryOp → Bool) {operand : Rule Expr}
    (hoperand : Shrinks operand) : Progresses (chainStep accepts operand) := by
  refine ⟨fun l => rfl, fun l ts us hstep => ?_, fun l ts b us hstep => ?_⟩
  · obtain ⟨-, rfl⟩ | ⟨t, vs, op, r, -, -, -, -, hb⟩ := chainStep_cases hstep
    · exact le_rfl
    · cases hb
  · obtain ⟨hb, -⟩ | ⟨t, vs, op, r, rfl, -, -, hr, -⟩ := chainStep_cases hstep
    · cases hb
    · exact Nat.lt_succ_of_le (hoperand hr)

theorem itemStep_progresses {item : Rule α} (hitem : Shrinks item) :
    Progresses (itemStep item) := by
  refine ⟨fun items => rfl, fun items ts us hstep => ?_, fun items ts b us hstep => ?_⟩
  · obtain ⟨-, rfl⟩ | ⟨t, vs, a, -, -, -, hb⟩ := itemStep_cases hstep
    · exact le_rfl
    · cases hb
  · obtain ⟨hb, -⟩ | ⟨t, vs, a, rfl, -, ha, -⟩ := itemStep_cases hstep
    · cases hb
    · exact Nat.lt_succ_of_le (hitem ha)

theorem statementsStep_progresses {statement : Rule Statement} (hstatement : Shrinks statement) :
    Progresses (statementsStep statement) := by
  refine ⟨fun body => rfl, fun body ts us hstep => ?_, fun body ts b us hstep => ?_⟩
  · obtain ⟨-, rfl⟩ | ⟨t, vs, -, -, ⟨-, -, hb⟩ | ⟨s, -, hb⟩⟩ := statementsStep_cases hstep
    · exact le_rfl
    · cases hb
    · cases hb
  · obtain ⟨hb, -⟩ | ⟨t, vs, rfl, -, ⟨-, rfl, -⟩ | ⟨s, hs, -⟩⟩ := statementsStep_cases hstep
    · cases hb
    · exact Nat.lt_succ_self _
    · exact Nat.lt_succ_of_le (hstatement hs)

theorem declarationsStep_progresses : Progresses declarationsStep := by
  refine ⟨fun done => rfl, fun done ts us hstep => ?_, fun done ts b us hstep => ?_⟩
  · obtain ⟨-, rfl⟩ | ⟨d, -, hb⟩ := declarationsStep_cases hstep
    · exact le_rfl
    · cases hb
  · obtain ⟨hb, -⟩ | ⟨d, hd, -⟩ := declarationsStep_cases hstep
    · cases hb
    · obtain ⟨vs, rfl, hvs⟩ := declaration_yields hd
      cases hvs with
      | decl _ _ _ _ =>
        simp
        omega

/-- The two rules do the same on lists of at most `n` tokens. -/
def AgreeUpTo (n : ℕ) (x y : Rule α) : Prop :=
  ∀ ts, ts.length ≤ n → x ts = y ts

namespace AgreeUpTo

variable {n : ℕ}

theorem refl (x : Rule α) : AgreeUpTo n x x := fun _ _ => rfl

theorem bind {x y : Rule α} {f g : α → Rule β} (hxy : AgreeUpTo n x y) (hx : Shrinks x)
    (hfg : ∀ a, AgreeUpTo n (f a) (g a)) : AgreeUpTo n (x >>= f) (y >>= g) := by
  intro ts hts
  have heq := hxy ts hts
  cases hok : x ts with
  | ok a us =>
    rw [bind_of_ok hok, bind_of_ok (heq ▸ hok)]
    exact hfg a us ((hx hok).trans hts)
  | error e us => rw [bind_of_error hok, bind_of_error (heq ▸ hok)]

/-- Behind a token that is consumed, a list is shorter. -/
theorem expect_bind {f g : Token → Rule β} (hfg : ∀ t, AgreeUpTo n (f t) (g t)) :
    AgreeUpTo (n + 1) (expect kind what >>= f) (expect kind what >>= g) := by
  intro ts hts
  cases ts with
  | nil => rfl
  | cons t ts =>
    by_cases ht : t.kind = kind
    · rw [bind_of_ok (expect_cons ht), bind_of_ok (expect_cons ht)]
      exact hfg t ts (Nat.le_of_succ_le_succ hts)
    · rw [bind_of_error (expect_of_ne ht), bind_of_error (expect_of_ne ht)]

theorem extend {step other : α → Rule (Option α)} (h : ∀ a, AgreeUpTo n (step a) (other a))
    (hstep : Progresses step) (a : α) : AgreeUpTo n (extend a step) (extend a other) := by
  have hiterate (k : ℕ) : ∀ a, AgreeUpTo n (iterate step k a) (iterate other k a) := by
    induction k with
    | zero => exact fun a => refl _
    | succ k ih =>
      intro a
      refine (h a).bind (hstep.shrinks a) fun next => ?_
      cases next with
      | none => exact refl _
      | some b => exact ih b
  exact fun ts hts => hiterate ts.length a ts hts

/-- A rule that recurs with ever smaller bounds, from the number of tokens on, satisfies the
equation that would define it without bounds. -/
theorem unbounded_eq {rules : ℕ → Rule α} {body : Rule α → Rule α}
    (hnil : ∀ k, rules k [] = .error .endOfInput [])
    (hsucc : ∀ k, rules (k + 1) = body (rules k))
    (hbody : ∀ n k y, AgreeUpTo n (rules k) y → AgreeUpTo (n + 1) (body (rules k)) (body y)) :
    (fun ts => rules ts.length ts) = body fun ts => rules ts.length ts := by
  have hagree (k l : ℕ) : AgreeUpTo (min k l) (rules k) (rules l) := by
    induction k generalizing l with
    | zero =>
      intro ts hts
      obtain rfl : ts = [] := by simpa using hts
      rw [hnil, hnil]
    | succ k ih =>
      cases l with
      | zero =>
        intro ts hts
        obtain rfl : ts = [] := by simpa using hts
        rw [hnil, hnil]
      | succ l =>
        rw [Nat.succ_min_succ, hsucc, hsucc]
        exact hbody _ _ _ (ih l)
  funext ts
  have hinner : AgreeUpTo ts.length (rules ts.length) fun us => rules us.length us :=
    fun us hus => hagree ts.length us.length us (by simp [hus])
  calc
    rules ts.length ts = rules (ts.length + 1) ts := hagree _ _ ts (by simp)
    _ = body (rules ts.length) ts := by rw [hsucc]
    _ = body (fun us => rules us.length us) ts := hbody _ _ _ hinner ts (Nat.le_succ _)

end AgreeUpTo

/-- A token that begins an expression without parentheses decides it, and a token that begins none
is refused. -/
theorem primary_cons (t : Token) :
    t.kind = .mark .leftParen ∨ (∃ e, ∀ inner ts, primary inner (t :: ts) = .ok e ts) ∨
      ∃ e : SyntaxError, e.token? = some t ∧ ∀ inner ts, primary inner (t :: ts) = .error e ts := by
  cases hk : t.kind with
  | integerLiteral =>
    cases hvalue : Integer.ofText? t.lexeme with
    | some value => exact .inr (.inl ⟨_, fun inner ts => primary_int hk hvalue⟩)
    | none =>
      refine .inr (.inr ⟨.literalTooLarge t, rfl, fun inner ts => ?_⟩)
      rw [primary, bind_of_ok next_cons]
      simp only [hk, hvalue]
      rfl
  | stringLiteral => exact .inr (.inl ⟨_, fun inner ts => primary_string hk⟩)
  | identifier => exact .inr (.inl ⟨_, fun inner ts => primary_name hk⟩)
  | mark m =>
    by_cases hm : m = .leftParen
    · exact .inl (by rw [hm])
    · refine .inr (.inr ⟨.expected "expression" t, rfl, fun inner ts => ?_⟩)
      rw [primary, bind_of_ok next_cons]
      cases m <;> first | exact absurd rfl hm | (simp only [hk]; rfl)
  | keyword word | endOfInput =>
    refine .inr (.inr ⟨.expected "expression" t, rfl, fun inner ts => ?_⟩)
    rw [primary, bind_of_ok next_cons]
    simp only [hk]
    rfl

/-- What stands between parentheses, with the closing one. -/
def closed (inner : Rule Expr) : Rule Expr := do
  let node ← inner
  let _ ← expect (.mark .rightParen) "')' after expression"
  return node

theorem primary_leftParen {inner : Rule Expr} (ht : t.kind = .mark .leftParen) :
    primary inner (t :: ts) = closed inner ts := by
  rw [primary, bind_of_ok next_cons]
  simp only [ht]
  rfl

namespace AgreeUpTo

variable {n : ℕ} {x y : Rule Expr}

theorem primary (h : AgreeUpTo n x y) (hx : Shrinks x) :
    AgreeUpTo (n + 1) (primary x) (primary y) := by
  intro ts hts
  cases ts with
  | nil => rfl
  | cons t ts =>
    rcases primary_cons t with ht | ⟨e, he⟩ | ⟨e, -, he⟩
    · rw [primary_leftParen ht, primary_leftParen ht]
      exact h.bind hx (fun node => refl _) ts (Nat.le_of_succ_le_succ hts)
    · rw [he, he]
    · rw [he, he]

theorem signed (h : AgreeUpTo n x y) (hx : YieldsExpr x .expr) :
    AgreeUpTo (n + 1) (signed x) (signed y) := by
  intro ts hts
  rw [Rule.signed, Rule.signed, bind_of_ok takeWhile_apply, bind_of_ok takeWhile_apply]
  have hle := (ts.dropWhile_suffix fun token => token.kind == .mark .minus).length_le
  exact (h.primary hx.shrinks).bind (primary_yields hx).shrinks (fun operand => refl _) _
    (hle.trans hts)

theorem leftChain {accepts : BinaryOp → Bool} (h : AgreeUpTo n x y) (hx : Shrinks x) :
    AgreeUpTo n (leftChain accepts x) (leftChain accepts y) := by
  refine h.bind hx fun left => ?_
  refine extend (fun l => ?_) (chainStep_progresses accepts hx) left
  refine (refl _).bind .operator fun result => ?_
  cases result with
  | none => exact refl _
  | some found => exact h.bind hx fun r => refl _

theorem relationalOver (h : AgreeUpTo n x y) (hx : YieldsExpr x .expr) :
    AgreeUpTo (n + 1) (relationalOver x) (relationalOver y) := by
  have hterm : AgreeUpTo (n + 1) (multiplicativeOver x) (multiplicativeOver y) :=
    (h.signed hx).leftChain (signed_yields hx).shrinks
  have hadditive : AgreeUpTo (n + 1) (additiveOver x) (additiveOver y) :=
    hterm.leftChain (multiplicativeOver_yields hx).shrinks
  have hshrinks := (additiveOver_yields hx).shrinks
  refine hadditive.bind hshrinks fun left => (refl _).bind .operator fun result => ?_
  cases result with
  | none => exact refl _
  | some found => exact hadditive.bind hshrinks fun r => refl _

end AgreeUpTo

theorem expression_eq : expression = relationalOver expression :=
  AgreeUpTo.unbounded_eq (fun k => by cases k <;> rfl) (fun _ => rfl)
    fun _ k _ h => h.relationalOver (expressionWithin_yields k)

namespace AgreeUpTo

variable {n : ℕ} {x y : Rule Statement}

theorem statementsOver (h : AgreeUpTo n x y) (hx : Shrinks x) :
    AgreeUpTo n (statementsOver x) (statementsOver y) := by
  refine h.bind hx fun s => ?_
  refine extend (fun body => ?_) (statementsStep_progresses hx) [s]
  refine (refl _).bind .accept fun accepted => ?_
  cases accepted with
  | false => exact refl _
  | true =>
    refine (refl _).bind .nextIs fun ends => ?_
    cases ends with
    | true => exact refl _
    | false => exact h.bind hx fun s => refl _

theorem blockOver (h : AgreeUpTo n x y) (hx : YieldsStmt x) :
    AgreeUpTo (n + 1) (blockOver x) (blockOver y) :=
  expect_bind fun _ =>
    (h.statementsOver hx.shrinks).bind (statementsOver_yields hx).shrinks fun _ => refl _

theorem conditionalOver (h : AgreeUpTo n x y) (hx : Shrinks x) :
    AgreeUpTo (n + 1) (conditionalOver x) (conditionalOver y) := by
  refine expect_bind fun _ => (refl _).bind expression_yields.shrinks fun _ =>
    (refl _).bind .expect fun _ => h.bind hx fun _ => (refl _).bind .accept fun accepted => ?_
  cases accepted with
  | false => exact refl _
  | true => exact h.bind hx fun alternative => refl _

theorem loopOver (h : AgreeUpTo n x y) (hx : Shrinks x) :
    AgreeUpTo (n + 1) (loopOver x) (loopOver y) :=
  expect_bind fun _ => (refl _).bind expression_yields.shrinks fun _ =>
    (refl _).bind .expect fun _ => h.bind hx fun _ => refl _

theorem statementOver (h : AgreeUpTo n x y) (hx : YieldsStmt x) :
    AgreeUpTo (n + 1) (statementOver x) (statementOver y) := by
  intro ts hts
  cases ts with
  | nil => rfl
  | cons t ts =>
    rw [statementOver_cons, statementOver_cons]
    cases t.kind with
    | keyword word =>
      cases word with
      | begin => exact h.blockOver hx _ hts
      | «if» => exact h.conditionalOver hx.shrinks _ hts
      | «while» => exact h.loopOver hx.shrinks _ hts
      | _ => rfl
    | _ => rfl

end AgreeUpTo

theorem statement_eq : statement = statementOver statement :=
  AgreeUpTo.unbounded_eq (fun k => by cases k <;> rfl) (fun _ => rfl)
    fun _ k _ h => h.statementOver (statementWithin_yields k)

end Rule

end TinyPascal
