import TinyPascal.Syntax.Expression

/-!
# Rules for statements

The next token decides which statement is read. Statements in a list are separated by semicolons,
and one semicolon may stand before the closing `end`. An `else` belongs to the nearest `if`.
-/
namespace TinyPascal.Rule

def identifier (what : String) : Rule Identifier := do
  let token ← expect .identifier what
  return ⟨token.lexeme, token.position⟩

def assignment : Rule Statement := do
  let target ← identifier "variable name"
  let _ ← expect (.mark .assign) "':=' in assignment"
  let value ← expression
  return .assign target value target.position

def readStatement : Rule Statement := do
  let first ← expect (.keyword .read) "'read'"
  let _ ← expect (.mark .leftParen) "'(' after 'read'"
  let targets ← commaSeparated (identifier "variable name")
  let _ ← expect (.mark .rightParen) "')' after variable list"
  return .read targets first.position

def writeStatement : Rule Statement := do
  let first ← expect (.keyword .write) "'write'"
  let _ ← expect (.mark .leftParen) "'(' after 'write'"
  let values ← commaSeparated expression
  let _ ← expect (.mark .rightParen) "')' after expression list"
  return .write values first.position

/-- Statements with semicolons between them, and perhaps one more semicolon before `end`. -/
def statementsOver (statement : Rule Statement) : Rule (List Statement) := do
  extend [← statement] fun statements => do
    if ← accept (.mark .semicolon) then
      if ← nextIs (.keyword .«end») then
        return some statements
      else
        return some (statements ++ [← statement])
    else
      return none

def blockOver (statement : Rule Statement) : Rule Statement := do
  let first ← expect (.keyword .begin) "'begin'"
  let body ← statementsOver statement
  let _ ← expect (.keyword .«end») "'end'"
  return .block body first.position

def conditionalOver (statement : Rule Statement) : Rule Statement := do
  let first ← expect (.keyword .«if») "'if'"
  let condition ← expression
  let _ ← expect (.keyword .«then») "'then' after condition"
  let consequent ← statement
  if ← accept (.keyword .«else») then
    return .ifElse condition consequent (← statement) first.position
  else
    return .ifThen condition consequent first.position

def loopOver (statement : Rule Statement) : Rule Statement := do
  let first ← expect (.keyword .«while») "'while'"
  let condition ← expression
  let _ ← expect (.keyword .«do») "'do' after condition"
  let body ← statement
  return .whileDo condition body first.position

/-- A statement, with `inner` for the statements inside it. -/
def statementOver (inner : Rule Statement) : Rule Statement := do
  match ← get with
  | token :: _ =>
    match token.kind with
    | .identifier => assignment
    | .keyword .read => readStatement
    | .keyword .write => writeStatement
    | .keyword .begin => blockOver inner
    | .keyword .«if» => conditionalOver inner
    | .keyword .«while» => loopOver inner
    | _ => throw (.expected "statement" token)
  | [] => throw .endOfInput

/-- A statement on a list of at most `size` tokens: a statement inside another comes after a token
of the outer one. -/
def statementWithin (size : Nat) : Rule Statement := fun tokens =>
  match size with
  | 0 => .error .endOfInput tokens
  | size + 1 => statementOver (statementWithin size) tokens

def statement : Rule Statement := do
  statementWithin (← get).length

def statements : Rule (List Statement) :=
  statementsOver statement

def block : Rule Statement :=
  blockOver statement

end TinyPascal.Rule
