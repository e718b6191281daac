import TinyPascal.Syntax.Rule
import TinyPascal.Syntax.Tree

/-!
# Rules for expressions

From the loosest to the tightest: at most one relational operator, then sums and differences, then
products and quotients, then signs, then literals, names and parentheses. Arithmetic operators of
one level associate to the left.

The levels take the rule for what stands between parentheses as an argument, and that rule is tied
to them by the number of tokens left: each pair of parentheses takes a token away.
-/
namespace TinyPascal.Rule

/-- A literal, a name, or an expression in parentheses. The first token is consumed in any case. -/
def primary (inner : Rule Expr) : Rule Expr := do
  let token ← next
  match token.kind with
  | .integerLiteral =>
    match Integer.ofText? token.lexeme with
    | some value => return .int value token.position
    | none => throw (.literalTooLarge token)
  | .stringLiteral => return .str token.lexeme token.position
  | .identifier => return .var token.lexeme token.position
  | .mark .leftParen =>
    let node ← inner
    let _ ← expect (.mark .rightParen) "')' after expression"
    return node
  | _ => throw (.expected "expression" token)

/-- A primary expression after any number of minus signs. -/
def signed (inner : Rule Expr) : Rule Expr := do
  let signs ← takeWhile (.mark .minus)
  let operand ← primary inner
  return signs.foldr (fun sign node => .neg node sign.position) operand

/-- Consumes the next token if it spells an operator of the given class: the operator and its
place. -/
def operator (accepts : BinaryOp → Bool) : Rule (Option (BinaryOp × Position)) := do
  match ← get with
  | token :: rest =>
    match BinaryOp.ofKind? token.kind with
    | some op =>
      if accepts op then
        set rest
        return some (op, token.position)
      else
        return none
    | none => return none
  | [] => return none

/-- Operands with operators of one class between them, grouped to the left. -/
def leftChain (accepts : BinaryOp → Bool) (operand : Rule Expr) : Rule Expr := do
  extend (← operand) fun left => do
    match ← operator accepts with
    | some (op, position) => return some (.binary op left (← operand) position)
    | none => return none

def multiplicativeOver (inner : Rule Expr) : Rule Expr :=
  leftChain BinaryOp.isMultiplicative (signed inner)

def additiveOver (inner : Rule Expr) : Rule Expr :=
  leftChain BinaryOp.isAdditive (multiplicativeOver inner)

/-- At most one comparison, with `inner` between parentheses. -/
def relationalOver (inner : Rule Expr) : Rule Expr := do
  let left ← additiveOver inner
  match ← operator BinaryOp.isRelational with
  | some (op, position) => return .binary op left (← additiveOver inner) position
  | none => return left

/-- An expression on a list of at most `size` tokens. -/
def expressionWithin (size : Nat) : Rule Expr := fun tokens =>
  match size with
  | 0 => .error .endOfInput tokens
  | size + 1 => relationalOver (expressionWithin size) tokens

def expression : Rule Expr := do
  expressionWithin (← get).length

def relational : Rule Expr :=
  relationalOver expression

def additive : Rule Expr :=
  additiveOver expression

def multiplicative : Rule Expr :=
  multiplicativeOver expression

end TinyPascal.Rule
