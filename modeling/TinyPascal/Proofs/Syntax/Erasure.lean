import TinyPascal.Proofs.Syntax.Rule
import TinyPascal.Proofs.Token.Layout
import TinyPascal.Syntax.Program

/-!
# Parsing without positions

Rules look at the kinds of tokens, at the texts of names and literals, and at nothing else. So what
a rule makes of a token list is the same for every list with these kinds and texts, up to the
positions in trees and the tokens that errors quote: erasing commutes with every rule.
-/
namespace TinyPascal

/-- A token without its place, and with `spell` applied to its text if it is a keyword. -/
def Token.erase (spell : String → String) (t : Token) : Token :=
  ⟨t.kind, t.kind.respell spell t.lexeme, .start⟩

def SyntaxError.erase (spell : String → String) : SyntaxError → SyntaxError
  | expected what found => expected what (found.erase spell)
  | literalTooLarge literal => literalTooLarge (literal.erase spell)
  | trailingTokens found => trailingTokens (found.erase spell)
  | endOfInput => endOfInput

namespace Statement

theorem eraseAll_eq_map (body : List Statement) : eraseAll body = body.map erase := by
  induction body with
  | nil => rfl
  | cons s body ih => rw [eraseAll, ih, List.map_cons]

end Statement

namespace Rule

variable {α β α' β' : Type} {spell : String → String} {kind : TokenKind} {what : String}

/-- What a rule has made of a token list, with the tokens erased and `f` applied to the node. -/
def erased (spell : String → String) (f : α → α') :
    EStateM.Result SyntaxError (List Token) α → EStateM.Result SyntaxError (List Token) α'
  | .ok a rest => .ok (f a) (rest.map (Token.erase spell))
  | .error e rest => .error (e.erase spell) (rest.map (Token.erase spell))

/-- `Commutes spell f x y`: what `y` makes of erased tokens is what `x` makes of the tokens, with
`f` applied to the node. -/
def Commutes (spell : String → String) (f : α → α') (x : Rule α) (y : Rule α') : Prop :=
  ∀ ts, y (ts.map (Token.erase spell)) = erased spell f (x ts)

namespace Commutes

variable {f : α → α'} {g : β → β'} {x : Rule α} {y : Rule α'}

theorem pure {a : α} {b : α'} (h : f a = b) : Commutes spell f (pure a) (pure b) := by
  subst h
  exact fun ts => rfl

theorem throw {e e' : SyntaxError} (h : e.erase spell = e') :
    Commutes spell f (throw e) (throw e') := by
  subst h
  exact fun ts => rfl

theorem bind {k : α → Rule β} {l : α' → Rule β'} (hx : Commutes spell f x y)
    (hk : ∀ a, Commutes spell g (k a) (l (f a))) : Commutes spell g (x >>= k) (y >>= l) := by
  intro ts
  have hy := hx ts
  cases hts : x ts with
  | ok a rest =>
    rw [hts] at hy
    rw [bind_of_ok hts, bind_of_ok hy, hk a rest]
  | error e rest =>
    rw [hts] at hy
    rw [bind_of_error hts, bind_of_error hy]
    rfl

theorem ite {condition : Prop} [Decidable condition] {x' : Rule α} {y' : Rule α'}
    (hx : Commutes spell f x y) (hx' : Commutes spell f x' y') :
    Commutes spell f (if condition then x else x') (if condition then y else y') := by
  split
  · exact hx
  · exact hx'

theorem ite_bind {condition : Prop} [Decidable condition] {x' : Rule α} {y' : Rule α'}
    {k : α → Rule β} {l : α' → Rule β'} (hx : Commutes spell f x y) (hx' : Commutes spell f x' y')
    (hk : ∀ a, Commutes spell g (k a) (l (f a))) :
    Commutes spell g (if condition then x >>= k else x' >>= k)
      (if condition then y >>= l else y' >>= l) :=
  ite (bind hx hk) (bind hx' hk)

theorem get : Commutes spell (List.map (Token.erase spell)) get get := fun _ => rfl

theorem set (ts : List Token) :
    Commutes spell id (set ts) (set (ts.map (Token.erase spell))) := fun _ => rfl

theorem next : Commutes spell (Token.erase spell) next next := by
  refine bind get fun ts => ?_
  cases ts with
  | nil => exact throw rfl
  | cons t ts => exact bind (set ts) fun _ => pure rfl

theorem expect : Commutes spell (Token.erase spell) (expect kind what) (expect kind what) := by
  refine bind get fun ts => ?_
  cases ts with
  | nil => exact throw rfl
  | cons t ts => exact ite (bind (set ts) fun _ => pure rfl) (throw rfl)

theorem accept : Commutes spell id (accept kind) (accept kind) := by
  refine bind get fun ts => ?_
  cases ts with
  | nil => exact pure rfl
  | cons t ts => exact ite (bind (set ts) fun _ => pure rfl) (pure rfl)

theorem nextIs : Commutes spell id (nextIs kind) (nextIs kind) := by
  intro ts
  cases ts <;> rfl

theorem takeWhile :
    Commutes spell (List.map (Token.erase spell)) (takeWhile kind) (takeWhile kind) := by
  intro ts
  rw [takeWhile_apply, takeWhile_apply, List.takeWhile_map, List.dropWhile_map]
  rfl

theorem operator {accepts : BinaryOp → Bool} :
    Commutes spell (Option.map fun found => (found.1, .start)) (operator accepts)
      (operator accepts) := by
  refine bind get fun ts => ?_
  cases ts with
  | nil => exact pure rfl
  | cons t ts =>
    cases hop : BinaryOp.ofKind? t.kind with
    | none =>
      simp only [List.map_cons, Token.erase, hop]
      exact pure rfl
    | some op =>
      simp only [List.map_cons, Token.erase, hop]
      exact ite (bind (set ts) fun _ => pure rfl) (pure rfl)

theorem ofLength {x : ℕ → Rule α} {y : ℕ → Rule α'}
    (h : ∀ size, Commutes spell f (x size) (y size)) :
    Commutes spell f (do x (← MonadState.get).length) (do y (← MonadState.get).length) := by
  refine bind get fun ts => ?_
  rw [List.length_map]
  exact h ts.length

theorem iterate {step : α → Rule (Option α)} {step' : α' → Rule (Option α')}
    (hstep : ∀ a, Commutes spell (Option.map f) (step a) (step' (f a))) (rounds : ℕ) (a : α) :
    Commutes spell f (iterate step rounds a) (iterate step' rounds (f a)) := by
  induction rounds generalizing a with
  | zero => exact pure rfl
  | succ rounds ih =>
    refine bind (hstep a) fun next => ?_
    cases next with
    | none => exact pure rfl
    | some b => exact ih b

theorem extend {step : α → Rule (Option α)} {step' : α' → Rule (Option α')}
    (hstep : ∀ a, Commutes spell (Option.map f) (step a) (step' (f a))) (a : α) :
    Commutes spell f (extend a step) (extend (f a) step') :=
  ofLength fun rounds => iterate hstep rounds a

theorem furtherItems {item : Rule α} {item' : Rule α'} (hitem : Commutes spell f item item')
    (items : List α) :
    Commutes spell (List.map f) (furtherItems item items) (furtherItems item' (items.map f)) := by
  refine extend (fun items => bind accept fun accepted => ?_) items
  cases accepted with
  | false => exact pure rfl
  | true => exact bind hitem fun a => pure (by simp)

theorem commaSeparated {item : Rule α} {item' : Rule α'} (hitem : Commutes spell f item item') :
    Commutes spell (List.map f) (commaSeparated item) (commaSeparated item') :=
  bind hitem fun a => furtherItems hitem [a]

theorem primary {inner inner' : Rule Expr} (hinner : Commutes spell Expr.erase inner inner') :
    Commutes spell Expr.erase (primary inner) (primary inner') := by
  refine bind next fun t => ?_
  obtain ⟨kind, lexeme, p⟩ := t
  cases kind with
  | integerLiteral =>
    cases hvalue : Integer.ofText? lexeme with
    | some value =>
      simp only [Token.erase, TokenKind.respell, hvalue]
      exact pure rfl
    | none =>
      simp only [Token.erase, TokenKind.respell, hvalue]
      exact throw rfl
  | stringLiteral | identifier => exact pure rfl
  | mark m =>
    cases m with
    | leftParen => exact bind hinner fun node => bind expect fun _ => pure rfl
    | _ => exact throw rfl
  | _ => exact throw rfl

theorem erase_foldr_neg (signs : List Token) (e : Expr) :
    (signs.foldr (fun sign node => .neg node sign.position) e).erase =
      (signs.map (Token.erase spell)).foldr (fun sign node => .neg node sign.position) e.erase := by
  induction signs with
  | nil => rfl
  | cons sign signs ih => simp [Expr.erase, ih, Token.erase]

theorem signed {inner inner' : Rule Expr} (hinner : Commutes spell Expr.erase inner inner') :
    Commutes spell Expr.erase (signed inner) (signed inner') :=
  bind takeWhile fun signs => bind (primary hinner) fun e => pure (erase_foldr_neg signs e)

theorem leftChain {accepts : BinaryOp → Bool} {operand operand' : Rule Expr}
    (h : Commutes spell Expr.erase operand operand') :
    Commutes spell Expr.erase (leftChain accepts operand) (leftChain accepts operand') := by
  refine bind h fun first => extend (fun left => bind operator fun found => ?_) first
  cases found with
  | none => exact pure rfl
  | some found => exact bind h fun right => pure rfl

theorem additiveOver {inner inner' : Rule Expr} (hinner : Commutes spell Expr.erase inner inner') :
    Commutes spell Expr.erase (additiveOver inner) (additiveOver inner') :=
  leftChain (leftChain (signed hinner))

theorem relationalOver {inner inner' : Rule Expr}
    (hinner : Commutes spell Expr.erase inner inner') :
    Commutes spell Expr.erase (relationalOver inner) (relationalOver inner') := by
  refine bind (additiveOver hinner) fun left => bind operator fun found => ?_
  cases found with
  | none => exact pure rfl
  | some found => exact bind (additiveOver hinner) fun right => pure rfl

theorem expressionWithin (size : ℕ) :
    Commutes spell Expr.erase (expressionWithin size) (expressionWithin size) := by
  induction size with
  | zero => exact fun ts => rfl
  | succ size ih => exact relationalOver ih

theorem expression : Commutes spell Expr.erase expression expression :=
  ofLength expressionWithin

theorem identifier : Commutes spell Identifier.erase (identifier what) (identifier what) := by
  intro ts
  cases ts with
  | nil => rfl
  | cons t ts =>
    by_cases h : t.kind = .identifier
    · have h' : (t.erase spell).kind = .identifier := h
      rw [List.map_cons, Rule.identifier, bind_of_ok (expect_cons h), bind_of_ok (expect_cons h')]
      simp only [Token.erase, h]
      rfl
    · have h' : (t.erase spell).kind ≠ .identifier := h
      rw [List.map_cons, Rule.identifier, bind_of_error (expect_of_ne h),
        bind_of_error (expect_of_ne h')]
      rfl

theorem assignment : Commutes spell Statement.erase assignment assignment :=
  bind identifier fun _ => bind expect fun _ => bind expression fun _ => pure rfl

theorem readStatement : Commutes spell Statement.erase readStatement readStatement :=
  bind expect fun _ => bind expect fun _ => bind (commaSeparated identifier) fun _ =>
    bind expect fun _ => pure rfl

theorem writeStatement : Commutes spell Statement.erase writeStatement writeStatement :=
  bind expect fun _ => bind expect fun _ => bind (commaSeparated expression) fun _ =>
    bind expect fun _ => pure rfl

section

variable {inner inner' : Rule Statement}

theorem statementsOver (h : Commutes spell Statement.erase inner inner') :
    Commutes spell (List.map Statement.erase) (statementsOver inner) (statementsOver inner') := by
  refine bind h fun first => extend (fun body => bind accept fun accepted => ?_) [first]
  cases accepted with
  | false => exact pure rfl
  | true =>
    refine bind nextIs fun ends => ?_
    cases ends with
    | true => exact pure rfl
    | false => exact bind h fun s => pure (by simp)

theorem blockOver (h : Commutes spell Statement.erase inner inner') :
    Commutes spell Statement.erase (blockOver inner) (blockOver inner') :=
  bind expect fun _ => bind (statementsOver h) fun body => bind expect fun _ =>
    pure (by rw [Statement.erase, Statement.eraseAll_eq_map]; rfl)

theorem conditionalOver (h : Commutes spell Statement.erase inner inner') :
    Commutes spell Statement.erase (conditionalOver inner) (conditionalOver inner') := by
  refine bind expect fun _ => bind expression fun condition => bind expect fun _ =>
    bind h fun consequent => bind accept fun accepted => ?_
  cases accepted with
  | false => exact pure rfl
  | true => exact bind h fun alternative => pure rfl

theorem loopOver (h : Commutes spell Statement.erase inner inner') :
    Commutes spell Statement.erase (loopOver inner) (loopOver inner') :=
  bind expect fun _ => bind expression fun _ => bind expect fun _ => bind h fun _ => pure rfl

theorem statementOver (h : Commutes spell Statement.erase inner inner') :
    Commutes spell Statement.erase (statementOver inner) (statementOver inner') := by
  refine bind get fun ts => ?_
  cases ts with
  | nil => exact throw rfl
  | cons t ts =>
    obtain ⟨kind, lexeme, p⟩ := t
    cases kind with
    | identifier => exact assignment
    | keyword k =>
      cases k with
      | read => exact readStatement
      | write => exact writeStatement
      | begin => exact blockOver h
      | «if» => exact conditionalOver h
      | «while» => exact loopOver h
      | _ => exact throw rfl
    | _ => exact throw rfl

end

theorem statementWithin (size : ℕ) :
    Commutes spell Statement.erase (statementWithin size) (statementWithin size) := by
  induction size with
  | zero => exact fun ts => rfl
  | succ size ih => exact statementOver ih

theorem statement : Commutes spell Statement.erase statement statement :=
  ofLength statementWithin

theorem typeName : Commutes spell id typeName typeName :=
  bind next fun _ => ite (pure rfl) (throw rfl)

theorem declaration : Commutes spell Declaration.erase declaration declaration :=
  bind identifier fun first => bind (furtherItems identifier [first]) fun _ =>
    bind expect fun _ => bind typeName fun _ => bind expect fun _ => pure rfl

theorem declarations :
    Commutes spell (List.map Declaration.erase) declarations declarations := by
  refine bind expect fun _ => bind declaration fun first => extend (fun done =>
    bind nextIs fun more => ?_) [first]
  cases more with
  | false => exact pure rfl
  | true => exact bind declaration fun d => pure (by simp)

theorem program : Commutes spell Program.erase program program := by
  refine bind expect fun _ => bind identifier fun name => bind expect fun _ =>
    bind nextIs fun _ => ite_bind declarations (pure rfl) fun declared => bind expect fun _ =>
    bind (statementsOver statement) fun body => bind expect fun _ => bind expect fun _ =>
    bind get fun ts => ?_
  cases ts with
  | nil => exact pure (by rw [Program.erase, Statement.eraseAll_eq_map]; rfl)
  | cons t ts =>
    exact ite (pure (by rw [Program.erase, Statement.eraseAll_eq_map]; rfl)) (throw rfl)

end Commutes

end Rule

/-- Erased tokens are read as the erased program, or refused with the erased error. -/
theorem parse_map_erase (spell : String → String) (ts : List Token) :
    parse (ts.map (Token.erase spell)) =
      ((parse ts).map Program.erase).mapError (SyntaxError.erase spell) := by
  have hprogram : Rule.Commutes spell Program.erase Rule.program Rule.program := .program
  unfold parse EStateM.run
  rw [hprogram ts]
  cases Rule.program ts <;> rfl

end TinyPascal
