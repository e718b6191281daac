import TinyPascal.Execution.Fault
import TinyPascal.Syntax.Rule
import TinyPascal.Token.Lexer
import TinyPascal.Typing.Violation

/-!
# Diagnostics

Everything that can go wrong between a source text and the end of its run.
-/
namespace TinyPascal

/-- A failure, by the stage it belongs to. -/
inductive Diagnostic where
  | lexical (e : LexicalError)
  | syntactic (e : SyntaxError)
  | semantic (errors : List SemanticError)
  | runtime (e : RuntimeError)
deriving DecidableEq, Repr

namespace Diagnostic

def numbered (number : Nat) : List SemanticError → String
  | [] => ""
  | e :: rest => "\n   " ++ Text.decimal number ++ ". " ++ e.message ++ numbered (number + 1) rest

def message : Diagnostic → String
  | lexical e => e.message
  | syntactic e => e.message
  | semantic errors => "Semantic errors found:" ++ numbered 1 errors
  | runtime e => e.message

/-- The message of the first error behind a diagnostic. -/
def cause? : Diagnostic → Option String
  | lexical e => some e.message
  | syntactic e => some e.message
  | semantic errors => errors.head?.map SemanticError.message
  | runtime e => some e.message

end Diagnostic

end TinyPascal
