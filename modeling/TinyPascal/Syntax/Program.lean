import TinyPascal.Syntax.Statement

/-!
# The rule for programs

A program has a name, perhaps declarations, and a statement list. Nothing may follow its final dot
but the end of input.
-/
namespace TinyPascal

namespace Rule

/-- The only type that can be written. The token is consumed in any case. -/
def typeName : Rule Ty := do
  let token ← next
  if token.kind = .keyword .integer then
    return .integer
  else
    throw (.expected "type 'integer'" token)

def declaration : Rule Declaration := do
  let first ← identifier "variable name"
  let names ← furtherItems (identifier "variable name") [first]
  let _ ← expect (.mark .colon) "':' after variable list"
  let type ← typeName
  let _ ← expect (.mark .semicolon) "';' after declaration"
  return ⟨names, type, first.position⟩

def declarations : Rule (List Declaration) := do
  let _ ← expect (.keyword .var) "'var'"
  extend [← declaration] fun done => do
    if ← nextIs .identifier then
      return some (done ++ [← declaration])
    else
      return none

def program : Rule Program := do
  let first ← expect (.keyword .program) "'program'"
  let name ← identifier "program name"
  let _ ← expect (.mark .semicolon) "';' after program name"
  let declared ← if ← nextIs (.keyword .var) then declarations else pure []
  let _ ← expect (.keyword .begin) "'begin'"
  let body ← statements
  let _ ← expect (.keyword .«end») "'end'"
  let _ ← expect (.mark .dot) "'.' at end of program"
  match ← get with
  | token :: _ =>
    if token.kind = .endOfInput then
      return ⟨name, declared, body, first.position⟩
    else
      throw (.trailingTokens token)
  | [] => return ⟨name, declared, body, first.position⟩

end Rule

/-- Reads a token list as a program. What follows an end of input is not looked at. -/
def parse (tokens : List Token) : Except SyntaxError Program :=
  match Rule.program.run tokens with
  | .ok program _ => .ok program
  | .error e _ => .error e

end TinyPascal
