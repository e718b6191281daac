import TinyPascal.Position
import TinyPascal.Text.Escaped
import TinyPascal.Token.Kind

/-!
# Tokens

A token is a kind, a text and the place where it starts. The text of a string literal is its value,
the text of the end of input is empty, and any other token has the text it was written with.
-/
namespace TinyPascal

structure Token where
  kind : TokenKind
  lexeme : String
  position : Position
deriving DecidableEq, Repr

namespace Token

def describe (t : Token) : String :=
  match t.kind with
  | .endOfInput => "end of input"
  | .stringLiteral => "string \"" ++ .ofList (Text.escape t.lexeme.toList) ++ "\""
  | _ => "'" ++ t.lexeme ++ "'"

end Token

end TinyPascal
