import TinyPascal.Token.Basic

/-!
# Grammar rules

A rule reads a node from the front of a token list and leaves the rest, or fails and leaves what it
had not consumed by then. Rules look one token ahead and never go back.
-/
namespace TinyPascal

inductive SyntaxError where
  | expected (what : String) (found : Token)
  | literalTooLarge (literal : Token)
  | trailingTokens (found : Token)
  | endOfInput
deriving DecidableEq, Repr

namespace SyntaxError

/-- Where a syntax error is. The missing rest of a token list has no place of its own. -/
def position : SyntaxError → Position
  | expected _ t | literalTooLarge t | trailingTokens t => t.position
  | endOfInput => ⟨0, 0⟩

def text : SyntaxError → String
  | expected what found => "expected " ++ what ++ ", found " ++ found.describe
  | literalTooLarge literal => "integer literal too large: " ++ literal.lexeme
  | trailingTokens found => "unexpected tokens after end of program, found " ++ found.describe
  | endOfInput => "unexpected end of input"

def message (e : SyntaxError) : String :=
  "Syntax error at " ++ e.position.text ++ ": " ++ e.text

end SyntaxError

/-- A grammar rule: it consumes tokens from the front of a list. -/
abbrev Rule := EStateM SyntaxError (List Token)

namespace Rule

def nextIs (kind : TokenKind) : Rule Bool :=
  return (← get).head?.any fun token => token.kind == kind

def next : Rule Token := do
  match ← get with
  | token :: rest =>
    set rest
    return token
  | [] => throw .endOfInput

/-- Consumes the next token if it has the given kind, and says whether it did. -/
def accept (kind : TokenKind) : Rule Bool := do
  match ← get with
  | token :: rest =>
    if token.kind = kind then
      set rest
      return true
    else
      return false
  | [] => return false

/-- Consumes the next token, which must have the given kind. A token of another kind stays. -/
def expect (kind : TokenKind) (what : String) : Rule Token := do
  match ← get with
  | token :: rest =>
    if token.kind = kind then
      set rest
      return token
    else
      throw (.expected what token)
  | [] => throw .endOfInput

/-- Consumes all tokens of the given kind up to the first of another kind. -/
def takeWhile (kind : TokenKind) : Rule (List Token) :=
  modifyGet (List.span fun token => token.kind == kind)

/-- Applies `step` at most `rounds` times, until it declines. -/
def iterate {α : Type} (step : α → Rule (Option α)) : Nat → α → Rule α
  | 0, node => return node
  | rounds + 1, node => do
    match ← step node with
    | some node => iterate step rounds node
    | none => return node

/-- Applies `step` until it declines. A step that does not decline consumes a token, so there is no
need for more rounds than there are tokens. -/
def extend {α : Type} (node : α) (step : α → Rule (Option α)) : Rule α := do
  iterate step (← get).length node

/-- The items read so far and those that follow, each after a comma. -/
def furtherItems {α : Type} (item : Rule α) (items : List α) : Rule (List α) :=
  extend items fun items => do
    if ← accept (.mark .comma) then
      return some (items ++ [← item])
    else
      return none

def commaSeparated {α : Type} (item : Rule α) : Rule (List α) := do
  furtherItems item [← item]

end Rule

end TinyPascal
